import Schemata.Json.Value
import Schemata.Text.Decimal

/-!
# Log records

A record tells what happened: on a channel, at a level, in words, with named values beside them and, when it reports a
failure, with the trace of that failure. Operations emit records; what is done with them is decided elsewhere.
-/

namespace Schemata.Log

/-- How serious a record is. Greater numbers are more serious. -/
structure Level where
  number : Int
  deriving DecidableEq, Repr

namespace Level

/-- Details of use to developers alone. -/
def debug : Level := ⟨10⟩
/-- What the system does. -/
def info : Level := ⟨20⟩
/-- What a user should look at. -/
def warning : Level := ⟨30⟩
/-- What failed. -/
def error : Level := ⟨40⟩
/-- What ends the system. -/
def critical : Level := ⟨50⟩

/-- The name of a level; a level without one is named by its number. -/
def name (level : Level) : String :=
  if level = debug then "DEBUG"
  else if level = info then "INFO"
  else if level = warning then "WARNING"
  else if level = error then "ERROR"
  else if level = critical then "CRITICAL"
  else if level.number = 0 then "NOTSET"
  else "Level " ++ Text.ofInt level.number

end Level

/-- Where records are sent, named by words with dots between them. -/
structure Channel where
  name : String
  deriving DecidableEq, Repr

namespace Channel

/-- Choice of a table. -/
def tableChoice : Channel := ⟨"schemastore_server.store.base"⟩
/-- Tables kept in a file. -/
def fileTable : Channel := ⟨"schemastore_server.store.sqlite_table"⟩
/-- Operations of the registry. -/
def registry : Channel := ⟨"schemastore_server.schema.registry"⟩
/-- Operations of the service. -/
def service : Channel := ⟨"schemastore_server.api.service"⟩
/-- Requests over HTTP. -/
def http : Channel := ⟨"schemastore_server.api.http_server"⟩
/-- Settings. -/
def settings : Channel := ⟨"schemastore_server.config"⟩
/-- Start and end of the server. -/
def server : Channel := ⟨"schemastore_server.main"⟩
/-- What waits for requests and signals. -/
def waiting : Channel := ⟨"asyncio"⟩

/-- The names above one, the nearest first, all written backwards: what stands before a point, unless that is nothing. A
point right before one that was taken is passed over. -/
def namesAbove : List Char → List (List Char)
  | '.' :: c :: rest => (c :: rest) :: namesAbove rest
  | _ :: rest => namesAbove rest
  | [] => []

/-- The channels above a channel, the nearest first. -/
def above (channel : Channel) : List Channel :=
  (namesAbove channel.name.toList.reverse).map fun name => ⟨String.ofList name.reverse⟩

/-- Whether the way up from a channel comes to another one within so many steps. The way goes from each channel to the
nearest above it that is known. -/
def leadsTo (known : List Channel) (top : Channel) : Nat → Channel → Bool
  | 0, channel => channel = top
  | fuel + 1, channel =>
    channel = top ||
      match channel.above.find? (· ∈ known) with
      | some next => leadsTo known top fuel next
      | none => false

/-- Whether a channel is another one or lies below it, as long as these channels are known. Every step up makes the name
shorter. -/
def within (known : List Channel) (channel top : Channel) : Bool :=
  leadsTo (top :: known) top channel.name.length channel

end Channel

/-- One entry of a log. -/
structure Record where
  channel : Channel
  level : Level
  message : String
  extra : Json.Fields
  /-- Whether the trace of a failure comes with it. -/
  trace : Bool

/-- A record without a trace. -/
def Record.plain (channel : Channel) (level : Level) (message : String) (extra : Json.Fields := []) : Record :=
  ⟨channel, level, message, extra, false⟩

end Schemata.Log

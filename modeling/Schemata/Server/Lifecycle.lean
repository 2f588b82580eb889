import Schemata.Settings.Opening

/-!
# Starting and stopping a server

A server opens its table, makes an HTTP runner over it and sets it up, opens the site, serves until its end is asked for,
and cleans the runner up. Setting up, opening the site, serving and cleaning up take time: there a start is suspended,
and other calls may be made before it goes on (`Deployment.resume`). Any order of such moves is a run (`Deployment.run`).
Stopping closes the table at once and asks for the end. A start that fails is noted and stops the server; one that is
cancelled while it serves cleans its runner up and ends well.

What happened to tables and runners is kept as a history (`Event`), the first event first.
-/

namespace Schemata

/-- Why a start fails. -/
inductive StartFailure where
  | opening (failure : OpeningFailure)
  | port
  | other (message : String)
  deriving DecidableEq, Repr

/-- The failure in words. -/
def StartFailure.message : StartFailure → String
  | opening failure => failure.message
  | port => "bind(): port must be 0-65535."
  | other message => message

/-- Whether a port can be listened on. -/
def checkPort (port : Int) : Option StartFailure := if 0 ≤ port ∧ port ≤ 65535 then none else some .port

/-- What happens to tables and to the runners over them. -/
inductive Event where
  | opened (table : Nat)
  /-- A runner over a table was made. -/
  | made (runner table : Nat)
  | setUp (runner table : Nat)
  | cleanedUp (runner : Nat)
  | closed (table : Nat)
  deriving DecidableEq, Repr

/-- A server between two steps. -/
structure Server where
  settings : Settings
  /-- Whether it has started and not stopped. -/
  running : Bool
  ending : Bool
  /-- The number of its table, while it has one. -/
  table : Option Nat
  /-- The default context of its service, once it has one. -/
  context : Option String
  tables : Nat
  runners : Nat
  history : List Event
  log : List Log.Record

namespace Server

/-- A server before its first start. -/
def new (settings : Settings) : Server := ⟨settings, false, false, none, none, 0, 0, [], []⟩

/-- Notes a record. -/
def note (server : Server) (record : Log.Record) : Server := { server with log := server.log ++ [record] }

/-- Notes what the server does. -/
def say (server : Server) (message : String) : Server := server.note (.plain .server .info message)

/-- Adds an event to the history. -/
def happen (server : Server) (event : Event) : Server := { server with history := server.history ++ [event] }

/-- Asks for the end. -/
def askToEnd (server : Server) : Server := { server with ending := true }

/-- Closes the table and asks for the end. Without a table there is nothing to stop. -/
def stop (server : Server) : Server :=
  match server.table with
  | none => server
  | some table =>
    let ended := { server.say "Stopping SchemaStore server" with ending := true, table := none, running := false }
    let closed := ended.happen (.closed table)
    let closed := { closed with log := closed.log ++ server.settings.closingRecords }
    closed.say "SchemaStore server stopped"

/-- Notes that a start failed, and stops. -/
def fail (server : Server) (failure : StartFailure) : Server :=
  (server.note ⟨.server, .error, "Server startup failed: " ++ failure.message, [], true⟩).stop

end Server

/-! ## Starts that take time -/

/-- Where a start is. -/
inductive Phase where
  | settingUp (runner table : Nat)
  | openingSite (runner table : Nat)
  | serving (runner table : Nat)
  /-- It cleans its runner up, and then fails if there is a failure. -/
  | cleaningUp (runner table : Nat) (failure : Option StartFailure)
  | ended (failure : Option StartFailure)
  deriving DecidableEq, Repr

/-- A server and all starts that were made, by their numbers. -/
structure Deployment where
  server : Server
  starts : List Phase

namespace Deployment

/-- A deployment before the first call. -/
def new (settings : Settings) : Deployment := ⟨.new settings, []⟩

/-- Begins a start with what comes of opening the table. -/
def start (opened : Except OpeningFailure Log.Record) (deployment : Deployment) : Deployment :=
  let server := deployment.server
  if server.running then
    ⟨server.note (.plain .server .warning "Server already running"), deployment.starts ++ [.ended none]⟩
  else
    let server := (server.say "Starting SchemaStore server").note server.settings.record
    match opened with
    | .error failure => ⟨server.fail (.opening failure), deployment.starts ++ [.ended (some (.opening failure))]⟩
    | .ok record =>
      let server := ((server.note record).happen (.opened server.tables)).happen (.made server.runners server.tables)
      ⟨{ server with
          table := some server.tables, tables := server.tables + 1, runners := server.runners + 1, running := true,
          context := some server.settings.defaultContext },
        deployment.starts ++ [.settingUp server.runners server.tables]⟩

/-- Stops the server. -/
def stop (deployment : Deployment) : Deployment := { deployment with server := deployment.server.stop }

/-- Asks the server for its end. -/
def askToEnd (deployment : Deployment) : Deployment := { deployment with server := deployment.server.askToEnd }

/-- The server and the phase of a start after what it waited for has come, well or with a failure. A start that serves
waits for the end to be asked for. -/
def goOn (server : Server) (failure : Option StartFailure) : Phase → Option (Server × Phase)
  | .settingUp runner table =>
    match failure with
    | none => some (server.happen (.setUp runner table), .openingSite runner table)
    | some failure => some (server.fail failure, .ended (some failure))
  | .openingSite runner table =>
    match failure with
    | none =>
      some (server.note (.plain .http .info ("HTTP server running on http://" ++ server.settings.address)),
        .serving runner table)
    | some failure => some (server.fail failure, .ended (some failure))
  | .serving runner table =>
    match failure with
    | none => if server.ending then some (server, .cleaningUp runner table none) else none
    | some failure => some (server, .cleaningUp runner table (some failure))
  | .cleaningUp runner _ pending =>
    let server := server.happen (.cleanedUp runner)
    match pending with
    | none => some (server, .ended none)
    | some failure => some (server.fail failure, .ended (some failure))
  | .ended _ => none

/-- A start goes on, if it can. -/
def resume (number : Nat) (failure : Option StartFailure) (deployment : Deployment) : Option Deployment :=
  match deployment.starts[number]? with
  | none => none
  | some phase =>
    (goOn deployment.server failure phase).map fun (server, phase) => ⟨server, deployment.starts.set number phase⟩

/-- A start that serves is cancelled: it goes on as if its end had been asked for. -/
def cancel (number : Nat) (deployment : Deployment) : Option Deployment :=
  match deployment.starts[number]? with
  | some (.serving runner table) =>
    some { deployment with starts := deployment.starts.set number (.cleaningUp runner table none) }
  | _ => none

/-! ## Runs -/

/-- What can happen next to a deployment. -/
inductive Move where
  /-- A start is called, with what will come of opening the table. -/
  | start (opened : Except OpeningFailure Log.Record)
  | stop
  | askToEnd
  /-- What a start waited for has come, well or with a failure. -/
  | resume (number : Nat) (failure : Option StartFailure)
  | cancel (number : Nat)

/-- Makes a move. One that cannot be made changes nothing. -/
def move (deployment : Deployment) : Move → Deployment
  | .start opened => deployment.start opened
  | .stop => deployment.stop
  | .askToEnd => deployment.askToEnd
  | .resume number failure => (deployment.resume number failure).getD deployment
  | .cancel number => (deployment.cancel number).getD deployment

/-- Makes moves one after the other. -/
def run (moves : List Move) (deployment : Deployment) : Deployment := moves.foldl move deployment

/-! ## Starts that are not interrupted -/

/-- What happens to a server while one of its starts serves; otherwise nothing does. -/
def serve (number : Nat) (whileServing : Server → Server) (deployment : Deployment) : Deployment :=
  match deployment.starts[number]? with
  | some (.serving _ _) => { deployment with server := whileServing deployment.server }
  | _ => deployment

/-- Lets a start go on alone: it sets up, finds its port, and serves until its end is asked for. -/
def finish (number : Nat) (whileServing : Server → Server) (deployment : Deployment) : Deployment :=
  let ready := (deployment.resume number none).getD deployment
  let listening := (ready.resume number (checkPort deployment.server.settings.port)).getD ready
  let served := listening.serve number whileServing
  let cleaning := (served.resume number none).getD served
  (cleaning.resume number none).getD cleaning

/-- How the last start ended. -/
def lastFailure (deployment : Deployment) : Option StartFailure :=
  match deployment.starts.getLast? with
  | some (.ended failure) => failure
  | _ => none

/-- Starts the server and lets it run to its end. -/
def startAlone (opened : Except OpeningFailure Log.Record) (whileServing : Server → Server) (deployment : Deployment) :
    Deployment :=
  (deployment.start opened).finish deployment.starts.length whileServing

end Deployment

end Schemata

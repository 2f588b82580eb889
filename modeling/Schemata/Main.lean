import Schemata.Http.Application
import Schemata.Server.Run

/-!
# The program

Settings are read from the environment. A request comes as a line on standard input, its method, target and body with
spaces between them, and is answered by a line with the status and the body. The end of the input asks for the end of
the server. The log goes to standard error.
-/

namespace Schemata.CommandLine

open Http (Application Request Response)

/-- The variables of the environment that give settings, in capitals or in small letters. -/
def readEnvironment : IO (List (String × String)) := do
  let names := Settings.names.flatMap fun name =>
    let small := Settings.environmentName name
    [small.map Char.toUpper, small]
  let values ← names.mapM fun name => return (← IO.getEnv name).map (name, ·)
  return values.filterMap id

/-- Writes the lines of records. -/
def writeLog (format : Log.Format) (records : List Log.Record) : IO Unit :=
  (format.write records).forM fun line => IO.eprintln line.written

/-- The request in a line. -/
def requestOfLine (line : String) : Request :=
  let (method, rest) := Text.cut ' ' (Text.trim line).toList
  let (target, body) := Text.cut ' ' rest
  .ofClient (String.ofList method) (String.ofList target) [] (Bytes.ofText (String.ofList body))

/-- The line of a response. -/
def lineOfResponse (response : Response) : String :=
  Text.ofInt response.status ++ " " ++
    match response.body with
    | .json document => document.compact
    | .text text => text
    | .absent => ""

/-- Answers requests until the input ends. -/
partial def serve (app : Application) (format : Log.Format) (store : Table.Store) : IO Unit := do
  let line ← (← IO.getStdin).getLine
  if line.isEmpty then return
  let outcome := (app.handle (requestOfLine line)).run Table.Store.backend store
  writeLog format outcome.log
  IO.println (lineOfResponse outcome.value)
  serve app format outcome.state

/-- Runs a server from its start to its end. -/
def run (settings : Settings) (format : Log.Format) : IO UInt32 := do
  let disk : Disk := ⟨fun location => if location.parts.isEmpty then some .directory else none⟩
  let opened := disk.openFor settings
  let started := (Deployment.new settings).start (opened.map (·.2))
  let ready := (started.resume 0 none).getD started
  let serving := (ready.resume 0 (checkPort settings.port)).getD ready
  writeLog format (waitingRecord :: serving.server.log)
  match serving.lastFailure, opened with
  | none, .ok (store, _) =>
    serve ⟨⟨.standard, settings.defaultContext⟩, settings.origins⟩ format store
    writeLog format (serving.askToEnd.stop.server.log.drop serving.server.log.length)
    return 0
  | _, _ => return 1

end Schemata.CommandLine

open Schemata in
/-- Loads the settings and runs the server. -/
def main : IO UInt32 := do
  match Settings.load (← CommandLine.readEnvironment) [] with
  | .error (.misfits found) =>
    IO.eprintln (Settings.misfitsLine found)
    return 1
  | .error (.unreadable name) =>
    IO.eprintln (Settings.unreadableMessage name)
    return 1
  | .ok settings =>
    match Log.Format.ofNames settings.logLevel settings.logFormat.name with
    | .error bad =>
      IO.eprintln bad.message
      return 1
    | .ok format => CommandLine.run settings format

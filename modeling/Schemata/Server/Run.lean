import Schemata.Log.Format
import Schemata.Server.Lifecycle
import Schemata.Settings.Environment

/-!
# A run of the whole program

The program loads its settings, begins its log, starts the server, and serves until a signal asks for the end. Then it
stops. Values that do not fit are told in one line, and the program ends; nothing else that goes wrong is caught.
-/

namespace Schemata

/-- What goes wrong with a run and is not caught. -/
inductive RunFailure where
  /-- A value of the environment is no JSON document. -/
  | setting (name : String)
  | level (bad : Log.BadLevel)
  | start (failure : StartFailure)
  deriving DecidableEq, Repr

/-- The failure in words. -/
def RunFailure.message : RunFailure → String
  | setting name => Settings.unreadableMessage name
  | level bad => bad.message
  | start failure => failure.message

/-- How a run ends. -/
inductive Ending where
  /-- In good order, with the lines of its log. -/
  | finished (lines : List Log.Line)
  /-- At once, with values that do not fit. -/
  | refused (misfits : Form.Misfits)
  | failed (failure : RunFailure)

/-- What a signal does to a server. -/
def Server.receive (signal : Nat) (server : Server) : Server :=
  (server.say ("Received signal " ++ Text.ofNat signal ++ ", initiating shutdown")).askToEnd

/-- What is noted before a server is made: how requests and signals are waited for. -/
def waitingRecord : Log.Record := .plain .waiting .debug "Using selector: EpollSelector"

/-- Opens the table that settings ask for. -/
def Disk.openFor (disk : Disk) (settings : Settings) : Except OpeningFailure (Table.Store × Log.Record) :=
  disk.openTable settings.storage.name settings.location

/-- A run that is ended by a signal once it serves. -/
def runToSignal (disk : Disk) (environment : List (String × String)) (signal : Nat) : Ending :=
  match Settings.load environment [] with
  | .error (.misfits found) => .refused found
  | .error (.unreadable name) => .failed (.setting name)
  | .ok settings =>
    match Log.Format.ofNames settings.logLevel settings.logFormat.name with
    | .error bad => .failed (.level bad)
    | .ok format =>
      let opened := (disk.openFor settings).map (·.2)
      let started := (Deployment.new settings).startAlone opened (·.receive signal)
      match started.lastFailure with
      | none => .finished (format.write (waitingRecord :: started.stop.server.log))
      | some failure => .failed (.start failure)

end Schemata

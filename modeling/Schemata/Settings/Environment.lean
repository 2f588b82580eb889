import Schemata.Form
import Schemata.Json.Text
import Schemata.Settings.Basic

/-!
# Settings from the environment

A setting is taken from the arguments, else from the environment, where its name stands behind `SCHEMASTORE_` in
letters of any size, else from the defaults. Values of the environment are texts; the list of origins is written there
as JSON, and `null` means that it is not set. Names of the environment that belong to no setting are passed over;
arguments that belong to none are misfits. Arguments are named without regard to the size of letters.
-/

namespace Schemata.Settings

open Form (Misfits)
open Json (Value)

/-- Why there are no settings. -/
inductive Refusal where
  /-- A value of the environment is no JSON document. -/
  | unreadable (setting : String)
  | misfits (misfits : Misfits)

/-- The names of all settings. -/
def names : List String := standard.fields.map (·.1)

/-- The name of a setting in the environment, in small letters. -/
def environmentName (name : String) : String := "schemastore_" ++ name

/-- The value that the environment gives a setting. Of names that differ in the size of letters the last one counts. -/
def environmentText? (environment : List (String × String)) (name : String) : Option String :=
  (environment.reverse.find? fun entry => Text.lower entry.1 = environmentName name).map (·.2)

/-- The values that the environment gives, as they are written. -/
def environmentFields (environment : List (String × String)) : Except Refusal Json.Fields := do
  let given := names.filterMap fun name => (environmentText? environment name).map (name, ·)
  let read ← given.mapM fun (name, text) =>
    if name = "cors_origins" then
      match Json.parseText text with
      | .ok value => .ok (name, value)
      | .error _ => .error (.unreadable name)
    else .ok (name, Value.string text)
  return read.filter fun field =>
    match field.2 with
    | .null => false
    | _ => true

/-- The argument that is meant for a setting: the first one of its name in letters of any size. -/
def argument? (arguments : Json.Fields) (name : String) : Option Value :=
  (arguments.find? fun field => Text.lower field.1 = name).map (·.2)

/-- The arguments under the exact names of settings, and behind them those that belong to none. -/
def namedArguments (arguments : Json.Fields) : Json.Fields :=
  names.filterMap (fun name => (argument? arguments name).map (name, ·)) ++
    arguments.filter fun field => Text.lower field.1 ∉ names

/-- The values given by arguments and, where these give none, by the environment. -/
def merged (arguments fromEnvironment : Json.Fields) : Json.Fields :=
  arguments ++ fromEnvironment.filter fun field => (Json.field? field.1 arguments).isNone

/-- The settings that values give. -/
def ofFields (given : Json.Fields) : Except Misfits Settings :=
  let text (name : String) (fallback : String) := Form.field given name fallback Form.text
  let origins :=
    match Json.field? "cors_origins" given with
    | none => .ok standard.origins
    | some value => Form.texts "cors_origins" value
  let unknown : Except Misfits Unit :=
    match given.filter fun field => field.1 ∉ names with
    | [] => .ok ()
    | extra => .error (extra.map fun field => (field.1, .extra))
  let table := Form.both
    (Form.field given "storage_backend" "sqlite" (Form.word ["sqlite", "memory"]))
    (Form.both (Form.both (text "data_dir" standard.dataDirectory) (text "db_file" standard.file))
      (Form.both (Form.field given "wal_mode" standard.writeAhead Form.bool)
        (Form.field given "busy_timeout_ms" standard.busyTimeout Form.int)))
  let http := Form.both (Form.both (text "host" standard.host) (Form.field given "port" standard.port Form.int)) origins
  let log := Form.both (text "log_level" standard.logLevel)
    (Form.field given "log_format" "json" (Form.word ["json", "text"]))
  let all := Form.both (Form.both table http)
    (Form.both (Form.both (text "default_namespace" standard.defaultContext) log) unknown)
  all.map fun (((storage, (dataDirectory, file), writeAhead, busyTimeout), (host, port), origins),
      (defaultContext, logLevel, logFormat), _) =>
    { storage := (Storage.ofName? storage).getD .file, dataDirectory, file, writeAhead, busyTimeout, defaultContext,
      host, port, origins, logLevel, logFormat := .ofName logFormat }

/-- The settings of an environment and arguments. -/
def load (environment : List (String × String)) (arguments : Json.Fields) : Except Refusal Settings := do
  let fromEnvironment ← environmentFields environment
  (ofFields (merged (namedArguments arguments) fromEnvironment)).mapError .misfits

/-! ## Refusals in words -/

/-- A value of the environment that cannot be read. -/
def unreadableMessage (setting : String) : String :=
  "error parsing value for field \"" ++ setting ++ "\" from source \"EnvSettingsSource\""

/-- The first line told about values that do not fit. -/
def misfitsLine (misfits : Misfits) : String :=
  "Configuration error: " ++ Text.ofNat misfits.length ++
    (if misfits.length = 1 then " validation error" else " validation errors") ++ " for Settings"

end Schemata.Settings

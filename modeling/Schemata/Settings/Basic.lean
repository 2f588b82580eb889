import Schemata.Log.Record
import Schemata.Settings.Location

/-!
# Settings

What a server is told before it starts: where its table is, which context requests belong to that name none, where it
listens, which origins may read its responses, and what it logs. Every setting has a default.
-/

namespace Schemata

/-- Where a table is kept. -/
inductive Storage where
  | file
  | memory
  deriving DecidableEq, Repr

/-- How a kind of storage is called. -/
def Storage.name : Storage → String
  | file => "sqlite"
  | memory => "memory"

/-- The kind of storage of a name. -/
def Storage.ofName? (name : String) : Option Storage := [file, memory].find? (·.name = name)

/-- How lines of a log are written. -/
inductive LogFormat where
  | json
  | text
  deriving DecidableEq, Repr

/-- How a format of lines is called. -/
def LogFormat.name : LogFormat → String
  | json => "json"
  | text => "text"

/-- The format of a name; every other name stands for texts. -/
def LogFormat.ofName (name : String) : LogFormat := if name = json.name then json else text

/-- The settings of a server. -/
structure Settings where
  storage : Storage
  dataDirectory : String
  file : String
  /-- Whether the file has a journal that is written ahead. -/
  writeAhead : Bool
  /-- How many milliseconds are waited for a busy file. -/
  busyTimeout : Int
  /-- The context of requests that name none. -/
  defaultContext : String
  host : String
  port : Int
  /-- The origins that may read responses. -/
  origins : List String
  logLevel : String
  /-- How lines of the log are written. -/
  logFormat : LogFormat

namespace Settings

/-- The settings without any that are given. -/
def standard : Settings where
  storage := .file
  dataDirectory := "/var/lib/schemastore"
  file := "schemas.db"
  writeAhead := true
  busyTimeout := 5000
  defaultContext := "default"
  host := "0.0.0.0"
  port := 8081
  origins := ["*"]
  logLevel := "INFO"
  logFormat := .json

/-- Where the file of the table is. -/
def location (settings : Settings) : Location := (Location.ofText settings.dataDirectory).join (.ofText settings.file)

/-- Host and port with a colon between them. -/
def address (settings : Settings) : String := settings.host ++ ":" ++ Text.ofInt settings.port

/-- The settings as named values. -/
def fields (settings : Settings) : Json.Fields :=
  [("storage_backend", .string settings.storage.name),
    ("data_dir", .string settings.dataDirectory),
    ("db_file", .string settings.file),
    ("wal_mode", .bool settings.writeAhead),
    ("busy_timeout_ms", .int settings.busyTimeout),
    ("default_namespace", .string settings.defaultContext),
    ("host", .string settings.host),
    ("port", .int settings.port),
    ("cors_origins", .array (settings.origins.map .string)),
    ("log_level", .string settings.logLevel),
    ("log_format", .string settings.logFormat.name)]

/-- The record that tells the settings. -/
def record (settings : Settings) : Log.Record :=
  .plain .settings .info "Server configuration loaded"
    [("storage_backend", .string settings.storage.name),
      ("db_path", if settings.storage = .file then .string settings.location.text else .null),
      ("default_namespace", .string settings.defaultContext),
      ("http_bind", .string settings.address),
      ("log_level", .string settings.logLevel)]

/-- What is noted when the table is closed: where its file is, if it has one. -/
def closingRecords (settings : Settings) : List Log.Record :=
  match settings.storage with
  | .file => [.plain .fileTable .debug "Closed schema table" [("db_path", .string settings.location.text)]]
  | .memory => []

end Settings

end Schemata

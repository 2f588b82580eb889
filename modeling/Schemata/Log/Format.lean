import Schemata.Json.Writer
import Schemata.Log.Record
import Schemata.Settings.Basic
import Schemata.Text.Quoted

/-!
# Lines of a log

A log has a level and a format. It takes records of its level and above; the channel of requests has a level of its own,
as have the channels below it. A channel is known once a record was sent to it, and what was decided for a channel and a
level stands. A line is a JSON object of the record's values and its message, or a text of channel, level and message;
both also have the time, which is not part of the model.
-/

namespace Schemata.Log

/-! ## Levels by name -/

/-- Why a name gives a log no level. -/
inductive BadLevel where
  /-- The name stands for a line of text. -/
  | line
  /-- The name stands for a table of styles. -/
  | styles
  deriving DecidableEq, Repr

/-- The failure in words. -/
def BadLevel.message : BadLevel → String
  | line => "Unknown level: '%(levelname)s:%(name)s:%(message)s'"
  | styles =>
    "Level not an integer or a valid string: \x7b'%': (<class 'logging.PercentStyle'>, "
      ++ "'%(levelname)s:%(name)s:%(message)s'), '\x7b': (<class 'logging.StrFormatStyle'>, "
      ++ "'\x7blevelname\x7d:\x7bname\x7d:\x7bmessage\x7d'), '$': (<class 'logging.StringTemplateStyle'>, "
      ++ "'$\x7blevelname\x7d:$\x7bname\x7d:$\x7bmessage\x7d')\x7d"

/-- A letter in capitals, as far as these are letters from A to Z: the dotless and the long letter have one, letters that
are written as one have two or three. -/
def capitals (c : Char) : List Char :=
  match c with
  | 'ı' => ['I']
  | 'ſ' => ['S']
  | 'ß' => ['S', 'S']
  | 'ﬀ' => ['F', 'F']
  | 'ﬁ' => ['F', 'I']
  | 'ﬂ' => ['F', 'L']
  | 'ﬃ' => ['F', 'F', 'I']
  | 'ﬄ' => ['F', 'F', 'L']
  | 'ﬅ' => ['S', 'T']
  | 'ﬆ' => ['S', 'T']
  | c => [c.toUpper]

/-- The level of a name in letters of any size; an unknown name means the level of information. -/
def Level.ofName (name : String) : Except BadLevel Level :=
  match String.ofList (name.toList.flatMap capitals) with
  | "CRITICAL" | "FATAL" => .ok critical
  | "ERROR" => .ok error
  | "WARNING" | "WARN" => .ok warning
  | "DEBUG" => .ok debug
  | "NOTSET" => .ok ⟨0⟩
  | "BASIC_FORMAT" => .error .line
  | "_STYLES" => .error .styles
  | _ => .ok info

/-! ## Names of values -/

/-- The names that every record has for values of its own. -/
def ownNames : List String :=
  ["message", "asctime", "name", "msg", "args", "levelname", "levelno", "pathname", "filename", "module", "exc_info",
    "exc_text", "stack_info", "lineno", "funcName", "created", "msecs", "relativeCreated", "thread", "threadName",
    "processName", "process"]

/-- The first value of a record that has one of these names. -/
def Record.clash? (record : Record) : Option String := (record.extra.find? (·.1 ∈ ownNames)).map (·.1)

/-- A value with such a name, in words. -/
def clashMessage (name : String) : String :=
  Text.quoted ("Attempt to overwrite " ++ Text.quoted name ++ " in LogRecord")

/-! ## Logs -/

/-- Which records are written, and how. -/
structure Format where
  level : Level
  lines : LogFormat

/-- The format that settings ask for. -/
def Format.ofNames (levelName formatName : String) : Except BadLevel Format :=
  (Level.ofName levelName).map fun level => ⟨level, .ofName formatName⟩

/-- The channel of requests that were answered. -/
def access : Channel := ⟨"aiohttp.access"⟩

/-- The least level of that channel. -/
def accessLevel : Level := .warning

/-- What is known of the records that were sent so far. -/
structure Memory where
  channels : List Channel
  /-- What was decided for a channel and a level. -/
  decisions : List ((Channel × Level) × Bool)

/-- The memory before the first record. -/
def Memory.empty : Memory := ⟨[], []⟩

/-- The least level that a channel takes. -/
def Format.leastLevel (format : Format) (memory : Memory) (channel : Channel) : Level :=
  if channel.within memory.channels access then accessLevel else format.level

/-- Whether a record is written. A level of zero or below is never written. -/
def Format.takes (format : Format) (memory : Memory) (record : Record) : Bool :=
  match memory.decisions.find? (·.1 = (record.channel, record.level)) with
  | some decision => decision.2
  | none => 0 < record.level.number && (format.leastLevel memory record.channel).number ≤ record.level.number

/-- The memory with a record and what was decided for it. -/
def Memory.add (record : Record) (taken : Bool) (memory : Memory) : Memory :=
  ⟨record.channel :: memory.channels, ((record.channel, record.level), taken) :: memory.decisions⟩

/-- The records that are written. -/
def Format.taken (format : Format) (memory : Memory) : List Record → List Record
  | [] => []
  | record :: rest =>
    let taken := format.takes memory record
    let others := format.taken (memory.add record taken) rest
    if taken then record :: others else others

/-- A line of a log without its time. -/
inductive Line where
  /-- A JSON object, and whether it tells a time. -/
  | json (fields : Json.Fields) (timed : Bool)
  | text (text : String)

/-- A line as it is written. -/
def Line.written : Line → String
  | .json fields _ => (Json.Value.object fields).compact
  | .text words => words

/-- Values that a JSON line does not show: the time, which stands by itself, and the name of a task. -/
def hiddenNames : List String := ["time", "taskName"]

/-- Whether the line of a record tells a time. A value of that name stands in its place, and null tells none. -/
def Record.isTimed (record : Record) : Bool :=
  match Json.field? "time" record.extra with
  | some .null => false
  | _ => true

/-- The line of a record. -/
def Format.line (format : Format) (record : Record) : Line :=
  match format.lines with
  | .json =>
    .json (Json.setField "message" (.string record.message) (record.extra.filter (·.1 ∉ hiddenNames))) record.isTimed
  | .text =>
    .text ((if record.channel.name.isEmpty then "root" else record.channel.name) ++ " - " ++ record.level.name
      ++ " - " ++ record.message)

/-- The first name of a value that keeps one of the records from being written. -/
def Format.clash? (format : Format) (records : List Record) : Option String :=
  ((format.taken .empty records).filterMap Record.clash?).head?

/-- The lines of the records that are written. -/
def Format.write (format : Format) (records : List Record) : List Line :=
  (format.taken .empty records).map format.line

end Schemata.Log

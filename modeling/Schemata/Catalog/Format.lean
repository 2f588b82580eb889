import Schemata.Json.Writer
import Schemata.Text.Blank
import Schemata.Text.Lower

/-!
# Formats of schema content

The recognised formats form a closed set. Each has a tag, which is written into rows and answers, and a name;
`Format.ofTag?` takes the tag alone, `Format.ofLabel?` tag or name in letters of any size with blanks around them.
-/

namespace Schemata.Catalog

/-- A recognised format. -/
inductive Format where
  | avro
  | protobufDescriptor
  | protobufBinary
  | copybook
  deriving DecidableEq, Repr

namespace Format

/-- All formats in their order. -/
def all : List Format := [avro, protobufDescriptor, protobufBinary, copybook]

/-- The tag of a format. -/
def tag : Format → String
  | avro => "avro"
  | protobufDescriptor => "protobuf-desc"
  | protobufBinary => "protobuf-binary"
  | copybook => "copybook"

/-- The name of a format. -/
def name : Format → String
  | avro => "AVRO"
  | protobufDescriptor => "PROTOBUF_DESC"
  | protobufBinary => "PROTOBUF_BINARY"
  | copybook => "COPYBOOK"

/-- The format with this tag. -/
def ofTag? (text : String) : Option Format := all.find? (·.tag = text)

/-- The format that a label names. -/
def ofLabel? (label : String) : Option Format :=
  let small := Text.lower (Text.trim label)
  all.find? fun format => small = format.tag ∨ small = Text.lower format.name

/-- How a tag that may be missing is shown. -/
def shownTag (tag : Option String) : String := tag.getD "None"

/-- The refusal of a label that names no format. -/
def refusal (label : Option String) : String :=
  "Invalid schema type '" ++ shownTag label ++ "'. Valid types: "
    ++ (Json.Value.array (all.map fun format => .string format.tag)).shown

/-- The refusal of a value that is no tag. -/
def badTag (value : Json.Value) : String := value.shown ++ " is not a valid SchemaType"

@[simp] theorem ofTag?_tag (format : Format) : ofTag? format.tag = some format := by cases format <;> decide

end Format

/-- The format that is asked for: a recognised one, or a tag that names none. -/
inductive FormatRequest where
  | known (format : Format)
  /-- A tag that names no format, or no tag at all. -/
  | unknown (tag : Option String)
  deriving DecidableEq, Repr

/-- What a label asks for. -/
def FormatRequest.ofLabel (label : Option String) : FormatRequest :=
  match label.bind Format.ofLabel? with
  | some format => .known format
  | none => .unknown label

end Schemata.Catalog

import Schemata.Catalog.Failure
import Schemata.Json.Writer

/-!
# Descriptors

The descriptor of an identity tells its name, its description and the format of its content. It is kept in a row as a
JSON object in ASCII whose names are in order (`Descriptor.row`) and read back from it (`Descriptor.ofRow`). Drafts have
texts for name and description; what is read may hold any values there, since rows can be written by others.
-/

namespace Schemata.Catalog

/-- A descriptor that is to be written. -/
structure Draft where
  identity : Identity
  name : String
  description : String
  format : FormatRequest
  deriving DecidableEq, Repr

/-- A descriptor as it is kept. -/
structure Descriptor where
  identity : Identity
  name : Json.Value
  description : Json.Value
  format : Format

/-- The descriptor that a draft asks for, once its format is recognised. -/
def Draft.descriptor (draft : Draft) (format : Format) : Descriptor :=
  ⟨draft.identity, .string draft.name, .string draft.description, format⟩

/-- The row of a descriptor. -/
def Descriptor.row (descriptor : Descriptor) : Bytes :=
  Bytes.ofText <| Json.Value.write .row <| .object
    [("description", descriptor.description), ("name", descriptor.name), ("type", .string descriptor.format.tag)]

/-- The document in a row. -/
def documentOfRow (row : Bytes) : Except Undecodable Json.Value :=
  match Bytes.toText? row with
  | some text =>
    match Json.parse text with
    | .ok document => .ok document
    | .error cause => .error (.notDocument text cause)
  | none => .error (.notText row)

/-- A field of a document. -/
def fieldOf (document : Json.Value) (name : String) : Except Undecodable Json.Value :=
  match document with
  | .object fields =>
    match Json.field? name fields with
    | some value => .ok value
    | none => .error (.noField name)
  | _ => .error (.noFields document)

/-- The format with a value as its tag. -/
def formatOf (value : Json.Value) : Except Undecodable Format :=
  match value with
  | .string tag =>
    match Format.ofTag? tag with
    | some format => .ok format
    | none => .error (.notTag value)
  | _ => .error (.notTag value)

/-- The descriptor in a row. -/
def Descriptor.ofRow (identity : Identity) (row : Bytes) : Except Undecodable Descriptor := do
  let document ← documentOfRow row
  let name ← fieldOf document "name"
  let description ← fieldOf document "description"
  let format ← formatOf (← fieldOf document "type")
  .ok ⟨identity, name, description, format⟩

end Schemata.Catalog

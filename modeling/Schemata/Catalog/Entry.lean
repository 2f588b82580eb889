import Schemata.Bytes.Base64
import Schemata.Catalog.Descriptor

/-!
# Versions and entries

A version is one content under one number. An entry is what a reader gets: the content of one version together with the
descriptor and the numbers of all versions. The current version is the highest one.
-/

namespace Schemata.Catalog

/-- One content under its number. -/
structure Version where
  number : Nat
  content : Bytes
  deriving DecidableEq, Repr

/-- A schema as it is told to readers. -/
structure Entry where
  identity : Identity
  name : Json.Value
  /-- The description of the descriptor. -/
  description : Json.Value
  format : Format
  /-- The version that the content has. -/
  version : Int
  content : Bytes
  versions : List Int

/-- The numbers of a list in ascending order, each once. -/
def ascending (numbers : List Int) : List Int := (numbers.mergeSort (· ≤ ·)).eraseReps

/-- An uploaded version as named values. -/
def uploadFields (identity : Identity) (version : Int) : Json.Fields :=
  [("id", .string identity.label), ("version", .int version)]

namespace Entry

/-- The highest version; the one told where no others are known. -/
def current (entry : Entry) : Int := (entry.versions.max?).getD entry.version

/-- The entry as named values, the content in base64. -/
def fields (entry : Entry) : Json.Fields :=
  [("id", .string entry.identity.label),
    ("namespace", .string entry.identity.context),
    ("name", entry.name),
    ("description", entry.description),
    ("type", .string entry.format.tag),
    ("version", .int entry.version),
    ("current", .int entry.current),
    ("versions", .array ((ascending entry.versions).map .int)),
    ("specification", .string (Bytes.base64 entry.content))]

end Entry

end Schemata.Catalog

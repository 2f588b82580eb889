import Schemata.Bytes.BigEndian
import Schemata.Catalog.Failure

/-!
# Keys of the catalogue

All rows of an identity have keys that start with its stem: context and label, each behind its size in two octets. One
more octet tells the kind of row, and the number of a version follows in eight octets, highest first. So the stem of
one identity is no start of a key of another one, and the rows of an identity's versions stand together in ascending
order.
-/

namespace Schemata.Catalog

/-- The greatest number that a row can hold. -/
def maxVersion : Nat := Nat.pow 2 64 - 1

/-- A part of a key behind its size. -/
def Part.octets (part : Part) (text : String) : Except Invalid Bytes :=
  let octets := Bytes.ofText text
  if octets.length ≤ maxPartSize then .ok (Bytes.bigEndian 2 octets.length ++ octets)
  else .error (.tooLong part octets.length)

/-- The octet that tells a counter's row. -/
def counterTag : UInt8 := 0x63
/-- The octet that tells a descriptor's row. -/
def descriptorTag : UInt8 := 0x64
/-- The octet that tells a version's row. -/
def versionTag : UInt8 := 0x76

/-- The rows that an identity can have. -/
inductive RowName where
  /-- The latest version that was assigned. -/
  | counter
  | descriptor
  | version (number : Int)
  deriving DecidableEq, Repr

/-- What stands in a key behind the stem. A version has to be one that eight octets can hold. -/
def RowName.octets : RowName → Except Invalid Bytes
  | counter => .ok [counterTag]
  | descriptor => .ok [descriptorTag]
  | version number =>
    if 0 ≤ number ∧ number ≤ maxVersion then .ok (versionTag :: Bytes.bigEndian 8 number.toNat)
    else .error (.versionOutOfRange number)

namespace Identity

/-- What all keys of an identity start with. -/
def stem (identity : Identity) : Except Invalid Bytes := do
  let context ← Part.context.octets identity.context
  let label ← Part.label.octets identity.label
  .ok (context ++ label)

/-- The key of a row. -/
def key (identity : Identity) (row : RowName) : Except Invalid Bytes := do
  let octets ← row.octets
  let stem ← identity.stem
  .ok (stem ++ octets)

/-- What the keys of all versions start with. -/
def versionStem (identity : Identity) : Except Invalid Bytes := do
  let stem ← identity.stem
  .ok (stem ++ [versionTag])

end Identity

end Schemata.Catalog

import Schemata.Catalog.Entry
import Schemata.Catalog.Key
import Schemata.Table.Program

/-!
# The rows of one identity

Reading and writing the three kinds of rows: the descriptor, the versions, and the counter, which holds the latest
version that was assigned. Each operation asks the table at most one command; what spans several rows is the registry's
part. Keys come first, so an identity or a version without a key fails before the table is asked.
-/

namespace Schemata.Catalog

/-- A program over a table that ends with a value or a failure. -/
abbrev Work := ExceptT Failure Table.Program

namespace Work

/-- Asks the table a command; its failure is the work's. -/
def ask (command : Table.Command) : Work command.Answer :=
  ExceptT.mk (.ask command fun
    | .ok answer => .done (.ok answer)
    | .error trouble => .done (.error (.table trouble)))

/-- Notes a record. -/
def note (record : Log.Record) : Work Unit := ExceptT.mk (.note record (.done (.ok ())))

/-- Fails, in words. -/
def fail {α : Type} (failure : Failure) : Work α := throw failure.worded

/-- A value, or the refusal of the input that has none. -/
def checked {α : Type} : Except Invalid α → Work α
  | .ok a => return a
  | .error reason => fail (.invalid reason)

/-- A value, or what is missing. -/
def found {α : Type} : Except Missing α → Work α
  | .ok a => return a
  | .error what => fail (.missing what)

/-- What a row says, or why it says nothing. -/
def decoded {α : Type} (result : Except Undecodable α) : Work α := ExceptT.mk (.done (result.mapError .undecodable))

end Work

/-- The number that eight octets hold. -/
def numberOfRow (row : Bytes) : Except Undecodable Nat :=
  if row.length = 8 then .ok (Bytes.ofBigEndian row) else .error .notNumber

/-- The version in a row whose key starts with the given count of octets. -/
def versionOfRow (stemSize : Nat) (row : Table.Row) : Except Undecodable Version := do
  .ok ⟨← numberOfRow (row.1.drop stemSize), row.2⟩

namespace Rows

open Schemata.Catalog.Work

/-- The octets in a row, if there is such a row. -/
def octets? (identity : Identity) (row : RowName) : Work (Option Bytes) := do
  ask (.get (← checked (identity.key row)))

/-- Writes a row. -/
def put (identity : Identity) (row : RowName) (octets : Bytes) : Work Unit := do
  ask (.put (← checked (identity.key row)) octets)

/-- Takes a row out. -/
def erase (identity : Identity) (row : RowName) : Work Unit := do
  ask (.delete (← checked (identity.key row)))

/-! ## The descriptor -/

/-- Whether there is a descriptor. -/
def isDescribed (identity : Identity) : Work Bool := return (← octets? identity .descriptor).isSome

/-- The descriptor, if there is one. -/
def descriptor? (identity : Identity) : Work (Option Descriptor) := do
  match ← octets? identity .descriptor with
  | none => return none
  | some row => return some (← decoded (Descriptor.ofRow identity row))

/-- Writes the descriptor. -/
def putDescriptor (descriptor : Descriptor) : Work Unit := put descriptor.identity .descriptor descriptor.row

/-! ## The versions -/

/-- The content of a version, if there is one. Versions start at one. -/
def content? (identity : Identity) (version : Int) : Work (Option Bytes) :=
  if version < 1 then return none else octets? identity (.version version)

/-- All versions, the lowest first. -/
def versions (identity : Identity) : Work (List Version) := do
  let start ← checked identity.versionStem
  let rows ← ask (.scan start)
  decoded (rows.mapM (versionOfRow start.length))

/-! ## The counter -/

/-- The latest version that was assigned, zero if there is none. -/
def counter (identity : Identity) : Work Nat := do
  match ← octets? identity .counter with
  | none => return 0
  | some row => decoded (numberOfRow row)

/-- Writes the latest version that was assigned. -/
def putCounter (identity : Identity) (version : Int) : Work Unit := do
  let key ← checked (identity.key .counter)
  if 0 ≤ version ∧ version ≤ maxVersion then ask (.put key (Bytes.bigEndian 8 version.toNat))
  else throw .counterOutOfRange

end Rows

end Schemata.Catalog

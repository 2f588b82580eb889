import Schemata.Catalog.Rows

/-!
# The registry

A registry keeps versioned schemas: an identity is described, contents are appended to it under ascending version
numbers, one version or the whole identity is erased. It holds to these rules, which keep every interrupted operation
harmless:

* a content is appended under the number after the highest of the counter and the stored versions, and its row is
  written before the counter, so no number is given out twice;
* a descriptor is the last row that a description writes and the first one that an erasure takes out, and every read
  looks for it first, so rows that an interrupted erasure leaves are not seen;
* a description that finds no descriptor takes out whatever rows are left.

A failure of the table is noted and told as a failure of the activity it ended (`within`).
-/

namespace Schemata.Catalog

open Schemata.Catalog.Work

/-- Notes a failure of the table and tells it as one of the activity. -/
def within {α : Type} (activity : Activity) (identity : Identity) (work : Work α) : Work α :=
  tryCatchThe Failure work fun
    | .table trouble => do
      note ⟨.registry, .error,
        "Storage failure while trying to " ++ activity.words ++ " schema " ++ identity.text ++ ": " ++ trouble.message,
        [], true⟩
      throw (.registry activity identity trouble)
    | failure => throw failure

/-- Notes what was done. -/
def noteDone (message : String) (identity : Identity) (extra : Json.Fields) : Work Unit :=
  note (.plain .registry .info message (("schema_id", .string identity.text) :: extra))

/-- The format of a draft that may be written. -/
def Draft.check (draft : Draft) : Except Invalid Format :=
  if draft.identity.label.isEmpty then .error .noLabel
  else if draft.name.isEmpty then .error .noName
  else if draft.description.isEmpty then .error .noDescription
  else
    match draft.format with
    | .known format => .ok format
    | .unknown tag => .error (.unknownFormat tag)

/-- A content that may be appended. -/
def checkContent : Option Bytes → Except Invalid Bytes
  | none | some [] => .error .noContent
  | some (first :: rest) => .ok (first :: rest)

/-- The descriptor; without one the schema does not exist. -/
def descriptorOf (identity : Identity) : Work Descriptor := do
  match ← Rows.descriptor? identity with
  | some descriptor => return descriptor
  | none => fail (.missing (.schema identity))

/-- Takes versions out one after the other. -/
def eraseVersions (identity : Identity) : List Version → Work Unit
  | [] => return ()
  | version :: rest => do
    Rows.erase identity (.version version.number)
    eraseVersions identity rest

/-- Takes all versions and the counter out, and tells how many versions there were. -/
def clear (identity : Identity) : Work Nat := do
  let versions ← Rows.versions identity
  eraseVersions identity versions
  Rows.erase identity .counter
  return versions.length

/-- The number after the highest of the counter and the versions. -/
def nextVersion (counter : Nat) (versions : List Version) : Nat :=
  versions.foldl (fun latest version => max latest version.number) counter + 1

/-- The version that is asked for among all versions: the one with the number, or the last one. -/
def selectVersion (identity : Identity) (number : Option Int) (versions : List Version) : Except Missing Version :=
  match number with
  | none =>
    match versions.getLast? with
    | some last => .ok last
    | none => .error (.versions identity)
  | some number =>
    match versions.find? fun version => (version.number : Int) = number with
    | some version => .ok version
    | none => .error (.version identity number)

/-! ## Operations -/

/-- Describes an identity, for the first time or anew. Versions of an identity that exists stay as they are. -/
def describe (draft : Draft) : Work Unit := do
  let format ← checked draft.check
  within .create draft.identity do
    unless ← Rows.isDescribed draft.identity do
      let _ ← clear draft.identity
    Rows.putDescriptor (draft.descriptor format)
  noteDone "Wrote schema descriptor" draft.identity
    [("schema_name", .string draft.name), ("schema_type", .string format.tag)]

/-- Appends a content as the next version and tells its number. -/
def append (identity : Identity) (content : Option Bytes) : Work Nat := do
  let content ← checked (checkContent content)
  let number ← within .add identity do
    let _ ← descriptorOf identity
    let counter ← Rows.counter identity
    let versions ← Rows.versions identity
    let number := nextVersion counter versions
    Rows.put identity (.version number) content
    Rows.putCounter identity number
    return number
  noteDone "Added schema version" identity [("version", .int number), ("size", .int content.length)]
  return number

/-- The entry of an identity at a version, or at the current one. -/
def entry (identity : Identity) (number : Option Int) : Work Entry :=
  within .read identity do
    let descriptor ← descriptorOf identity
    let versions ← Rows.versions identity
    let selected ← found (selectVersion identity number versions)
    return ⟨identity, descriptor.name, descriptor.description, descriptor.format, selected.number, selected.content,
      versions.map (·.number)⟩

/-- The numbers of all versions of an identity. -/
def numbers (identity : Identity) : Work (List Int) :=
  within .list identity do
    let _ ← descriptorOf identity
    let versions ← Rows.versions identity
    return versions.map (·.number)

/-- Whether an identity exists. -/
def contains (identity : Identity) : Work Bool := within .lookUp identity (Rows.isDescribed identity)

/-- Erases one version. The descriptor and the other versions stay. -/
def eraseVersion (identity : Identity) (number : Int) : Work Unit := do
  within .remove identity do
    let _ ← descriptorOf identity
    if (← Rows.content? identity number).isNone then fail (.missing (.version identity number))
    Rows.erase identity (.version number)
  noteDone "Removed schema version" identity [("version", .int number)]

/-- Erases an identity with all its rows. An identity that does not exist is left so. -/
def erase (identity : Identity) : Work Unit := do
  let removed ← within .delete identity do
    Rows.erase identity .descriptor
    clear identity
  noteDone "Deleted schema" identity [("versions_removed", .int removed)]

/-! ## Registries -/

/-- Something that answers the seven operations. -/
structure Registry where
  describe : Draft → Work Unit
  append : Identity → Option Bytes → Work Nat
  entry : Identity → Option Int → Work Entry
  numbers : Identity → Work (List Int)
  /-- Tells whether an identity exists. -/
  contains : Identity → Work Bool
  eraseVersion : Identity → Int → Work Unit
  erase : Identity → Work Unit

/-- The registry over the rows of a table. -/
def Registry.standard : Registry where
  describe := Catalog.describe
  append := Catalog.append
  entry := Catalog.entry
  numbers := Catalog.numbers
  contains := Catalog.contains
  eraseVersion := Catalog.eraseVersion
  erase := Catalog.erase

/-- A registry one of whose operations, named by its activity, fails in an unforeseen way. -/
def Registry.failing (activity : Activity) (message : String) (registry : Registry) : Registry :=
  match activity with
  | .create => { registry with describe := fun _ => throw (.unexpected message) }
  | .add => { registry with append := fun _ _ => throw (.unexpected message) }
  | .read => { registry with entry := fun _ _ => throw (.unexpected message) }
  | .list => { registry with numbers := fun _ => throw (.unexpected message) }
  | .lookUp => { registry with contains := fun _ => throw (.unexpected message) }
  | .remove => { registry with eraseVersion := fun _ _ => throw (.unexpected message) }
  | .delete => { registry with erase := fun _ => throw (.unexpected message) }

end Schemata.Catalog

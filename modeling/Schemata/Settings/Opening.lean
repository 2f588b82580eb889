import Schemata.Settings.Basic
import Schemata.Table.Store
import Schemata.Text.Quoted

/-!
# Opening a table

A table in memory is there at once; that its rows will be lost is noted as a warning. A table in a file needs the
directory of the file, which is made with all directories above it, and a place where nothing else stands. One name
stands for no file at all, and keeps nothing.
-/

namespace Schemata

/-- What can stand at a location before a table does. -/
inductive Occupant where
  | directory
  /-- A file that holds something else. -/
  | file
  | device
  deriving DecidableEq, Repr

/-- What is already at locations. -/
structure Disk where
  /-- What stands at a location, if anything does. -/
  occupant? : Location → Option Occupant

/-- Why a table cannot be opened. -/
inductive OpeningFailure where
  /-- There is no such kind of storage. -/
  | unsupported (name : String)
  /-- A directory would have to be made below something that is none. -/
  | notDirectory (directory : Location)
  /-- Something stands where a directory would have to be made. -/
  | occupied (directory : Location)
  /-- The location has a null character in it. -/
  | nullCharacter
  | table (trouble : Table.Trouble)
  deriving DecidableEq, Repr

/-- The failure in words. -/
def OpeningFailure.message : OpeningFailure → String
  | unsupported name => "Unsupported storage backend: " ++ name
  | notDirectory directory => "[Errno 20] Not a directory: " ++ Text.quoted directory.text
  | occupied directory => "[Errno 17] File exists: " ++ Text.quoted directory.text
  | nullCharacter => "embedded null byte"
  | table trouble => trouble.message

namespace Disk

/-- Whether something stands at a location that is no directory. -/
def blocks (disk : Disk) (location : Location) : Bool :=
  match disk.occupant? location with
  | some .directory | none => false
  | some .file | some .device => true

/-- Checks that a location can be named. -/
def checkName (location : Location) : Except OpeningFailure Unit :=
  if location.parts.any fun part => part.contains '\x00' then .error .nullCharacter else .ok ()

/-- Makes a directory and all directories above it. -/
def makeDirectory (disk : Disk) (directory : Location) : Except OpeningFailure Unit := do
  checkName directory
  if disk.occupant? directory = some .directory then .ok ()
  else if disk.blocks directory then .error (.occupied directory)
  else if directory.upward.any disk.blocks then .error (.notDirectory directory)
  else .ok ()

/-- Opens the file of a table, which is empty when it is new. -/
def openFile (disk : Disk) (location : Location) : Except OpeningFailure Table.Store := do
  disk.makeDirectory location.parent
  checkName location
  if location = .nowhere then .ok .unkept
  else
    match disk.occupant? location with
    | some .directory => .error (.table ⟨"Failed to open " ++ location.text ++ ": unable to open database file"⟩)
    | some .file => .error (.table Table.Relation.broken)
    | some .device => .error (.table ⟨"SQLite operation failed: disk I/O error"⟩)
    | none => .ok (.file .empty)

/-- Opens a table of a kind of storage, and notes it. -/
def openTable (disk : Disk) (storage : String) (location : Location) :
    Except OpeningFailure (Table.Store × Log.Record) :=
  match Storage.ofName? storage with
  | some .file => do
    let table ← disk.openFile location
    return (table, .plain .fileTable .info "Initialized schema table" [("db_path", .string location.text)])
  | some .memory =>
    return (.memory .empty,
      .plain .tableChoice .warning "Using in-memory table; all schemas are lost on exit")
  | none => .error (.unsupported storage)

end Disk

end Schemata

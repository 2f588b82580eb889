import Schemata.Bytes.Successor
import Schemata.Table.Program

/-!
# Tables in a file

A relation between keys and values, with keys unique and rows in no order. A scan selects the rows whose keys lie
between the prefix and the end of its range, and sorts them by key. A file that is overwritten from outside is no
relation any more: then every command fails.
-/

namespace Schemata.Table

/-- A table in a file. -/
structure Relation where
  rows : List Row
  /-- Whether the file was overwritten. -/
  damaged : Bool
  deriving DecidableEq, Repr

namespace Relation

/-- The relation without rows. -/
def empty : Relation := ⟨[], false⟩

/-- The file after it was overwritten. -/
def damage (_ : Relation) : Relation := ⟨[], true⟩

/-- The value of a key. -/
def get? (rows : List Row) (key : Bytes) : Option Bytes := (rows.find? (·.1 = key)).map (·.2)

/-- Adds a row, or gives the row of that key a new value. -/
def upsert (rows : List Row) (key value : Bytes) : List Row :=
  if rows.any (·.1 = key) then rows.map fun row => if row.1 = key then (key, value) else row
  else (key, value) :: rows

/-- Takes the row of a key out. -/
def delete (rows : List Row) (key : Bytes) : List Row := rows.filter (·.1 ≠ key)

/-- Whether a key lies in the range of a prefix. -/
def inRange (start key : Bytes) : Bool :=
  !key.before start &&
    match start.successor? with
    | some stop => key.before stop
    | none => true

/-- The rows in the range of a prefix, sorted by key. -/
def scan (rows : List Row) (start : Bytes) : List Row :=
  (rows.filter fun row => inRange start row.1).mergeSort fun a b => !b.1.before a.1

/-- The failure of every command on an overwritten file. -/
def broken : Trouble := ⟨"SQLite operation failed: file is not a database"⟩

/-- Commands succeed until the file is overwritten. -/
def backend : Backend Relation where
  answer command table :=
    if table.damaged then (.error broken, table)
    else
      match command with
      | .get key => (.ok (get? table.rows key), table)
      | .put key value => (.ok (), { table with rows := upsert table.rows key value })
      | .delete key => (.ok (), { table with rows := delete table.rows key })
      | .scan start => (.ok (scan table.rows start), table)

end Relation

end Schemata.Table

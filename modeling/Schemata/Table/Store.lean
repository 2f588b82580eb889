import Schemata.Table.Indexed
import Schemata.Table.Relation

/-!
# The table in use

Either kind of table. They answer commands alike; they differ in what becomes of the rows when the table is closed, and
when it is opened again. A table in a file may also have been given a place that keeps nothing: then every command opens
a file of its own, in which there is no table.
-/

namespace Schemata.Table

/-- A table in memory or in a file. -/
inductive Store where
  | memory (table : Indexed)
  | file (table : Relation)
  | unkept

namespace Store

/-- The failure of every command where nothing is kept. -/
def noTable : Trouble := ⟨"SQLite operation failed: no such table: kv"⟩

/-- Passes each command to the table. -/
def backend : Backend Store where
  answer command store :=
    match store with
    | .memory table => ((Indexed.backend.answer command table).1, .memory (Indexed.backend.answer command table).2)
    | .file table => ((Relation.backend.answer command table).1, .file (Relation.backend.answer command table).2)
    | .unkept => (.error noTable, .unkept)

/-- The table after it is closed: rows in memory are lost. -/
def close : Store → Store
  | .memory _ => .memory .empty
  | .file table => .file table
  | .unkept => .unkept

/-- The table opened anew; an overwritten file cannot be opened. -/
def reopen : Store → Except Trouble Store
  | .memory _ => .ok (.memory .empty)
  | .file table => if table.damaged then .error Relation.broken else .ok (.file table)
  | .unkept => .ok .unkept

/-- The table after its file is overwritten. -/
def damage : Store → Store
  | .memory table => .memory table
  | .file table => .file table.damage
  | .unkept => .unkept

/-- All rows in ascending order of keys. -/
def rows (store : Store) : Except Trouble (List Row) := (backend.answer (.scan []) store).1

end Store

end Schemata.Table

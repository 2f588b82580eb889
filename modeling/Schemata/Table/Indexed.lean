import Schemata.Bytes.Successor
import Schemata.Table.Program

/-!
# Tables in memory

Values are looked up by key; the keys are kept beside them in ascending order. A scan cuts its range out of the ordered
keys: from the first key not before the prefix to the first one not before the end of the prefix's range.
-/

namespace Schemata.Table

/-- A table whose keys are indexed. -/
structure Indexed where
  values : List Row
  keys : List Bytes
  deriving DecidableEq, Repr

namespace Indexed

/-- The table without rows. -/
def empty : Indexed := ⟨[], []⟩

/-- The value of a key. -/
def get? (table : Indexed) (key : Bytes) : Option Bytes := table.values.lookup key

/-- Puts a key among ascending keys. -/
def insertKey (key : Bytes) (keys : List Bytes) : List Bytes :=
  keys.takeWhile (fun k => !key.before k) ++ key :: keys.dropWhile (fun k => !key.before k)

/-- Gives a key a value; a new key is indexed. -/
def put (table : Indexed) (key value : Bytes) : Indexed :=
  match table.get? key with
  | some _ => { table with values := table.values.map fun row => if row.1 = key then (key, value) else row }
  | none => ⟨table.values ++ [(key, value)], insertKey key table.keys⟩

/-- Takes a key out of the values and out of the index. -/
def delete (table : Indexed) (key : Bytes) : Indexed :=
  match table.get? key with
  | some _ => ⟨table.values.filter (·.1 ≠ key), table.keys.erase key⟩
  | none => table

/-- The indexed keys from a prefix to the end of its range. -/
def keysFrom (table : Indexed) (start : Bytes) : List Bytes :=
  let keys := table.keys.dropWhile (·.before start)
  match start.successor? with
  | some stop => keys.takeWhile (·.before stop)
  | none => keys

/-- The rows whose keys start with a prefix. -/
def scan (table : Indexed) (start : Bytes) : List Row :=
  (table.keysFrom start).filterMap fun key => (table.get? key).map (key, ·)

/-- Every command succeeds. -/
def backend : Backend Indexed where
  answer
    | .get key, table => (.ok (table.get? key), table)
    | .put key value, table => (.ok (), table.put key value)
    | .delete key, table => (.ok (), table.delete key)
    | .scan start, table => (.ok (table.scan start), table)

end Indexed

end Schemata.Table

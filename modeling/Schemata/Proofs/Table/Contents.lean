import Mathlib.Data.List.Sort
import Schemata.Proofs.Bytes.Range
import Schemata.Table.Program

/-!
# The contents of a table

A table's contents are its rows in ascending order of keys. This is the map that every kind of table keeps in its own
way: two contents with the same values are equal (`Contents.ext_get?`), a put and a delete change one key
(`get?_put`, `get?_delete`), and a scan gives the rows whose keys have the start, in order (`mem_scan`,
`ascending_scan`).
-/

namespace Schemata.Table

/-- Rows in ascending order of keys, each key once. -/
@[ext] structure Contents where
  rows : List Row
  ascending : rows.Pairwise fun a b => a.1 < b.1

/-- What is in ascending order of keys is determined by what is in it. -/
theorem eq_of_ascending_of_mem_iff {α β : Type} [LT α] [Std.Asymm (α := α) (· < ·)] {x y : List (α × β)}
    (hx : x.Pairwise fun a b => a.1 < b.1) (hy : y.Pairwise fun a b => a.1 < b.1) (h : ∀ row, row ∈ x ↔ row ∈ y) :
    x = y := by
  have hasymm : ∀ a b : α, a < b → ¬b < a := Std.Asymm.asymm
  have : Std.Irrefl fun a b : α × β => a.1 < b.1 := ⟨fun a ha => hasymm _ _ ha ha⟩
  have : Std.Antisymm fun a b : α × β => a.1 < b.1 := ⟨fun a b ha hb => absurd hb (hasymm _ _ ha)⟩
  exact hx.eq_of_mem_iff hy h

/-- Where every key stands once, a key's value is the one that stands beside it. -/
theorem mem_iff_lookup {α β : Type} [BEq α] [LawfulBEq α] {rows : List (α × β)} {key : α} {value : β}
    (h : (rows.map (·.1)).Nodup) : (key, value) ∈ rows ↔ rows.lookup key = some value := by
  induction rows with
  | nil => simp
  | cons row rest ih =>
    obtain ⟨k, v⟩ := row
    obtain ⟨hk, hrest⟩ := List.nodup_cons.1 h
    rw [List.mem_cons, ih hrest, List.lookup_cons]
    by_cases he : key = k
    · subst he
      have hno : rest.lookup key ≠ some value := by
        rw [Ne, ← ih hrest]
        exact fun hmem => hk (List.mem_map.2 ⟨_, hmem, rfl⟩)
      simp [hno, eq_comm]
    · simp [he, beq_false_of_ne he]

namespace Contents

/-- No rows. -/
def empty : Contents := ⟨[], .nil⟩

/-- The value of a key. -/
def get? (s : Contents) (key : Bytes) : Option Bytes := s.rows.lookup key

/-- Gives a key a value. -/
def put (s : Contents) (key value : Bytes) : Contents where
  rows := s.rows.filter (·.1 < key) ++ (key, value) :: s.rows.filter (key < ·.1)
  ascending := by
    rw [List.pairwise_append, List.pairwise_cons]
    refine ⟨s.ascending.filter _, ⟨fun b hb => by simpa using (List.mem_filter.1 hb).2, s.ascending.filter _⟩, ?_⟩
    intro a ha b hb
    have ha' : a.1 < key := by simpa using (List.mem_filter.1 ha).2
    rcases List.mem_cons.1 hb with rfl | hb
    · exact ha'
    · exact List.lt_trans ha' (by simpa using (List.mem_filter.1 hb).2)

/-- Takes a key out. -/
def delete (s : Contents) (key : Bytes) : Contents where
  rows := s.rows.filter (·.1 ≠ key)
  ascending := s.ascending.filter _

/-- The rows whose keys have a start. -/
def scan (s : Contents) (start : Bytes) : List Row := s.rows.filter (start.isPrefixOf ·.1)

/-- The answer to a command and the contents after it. -/
def answer : (command : Command) → Contents → command.Answer × Contents
  | .get key, s => (s.get? key, s)
  | .put key value, s => ((), s.put key value)
  | .delete key, s => ((), s.delete key)
  | .scan start, s => (s.scan start, s)

/-! ## Values -/

variable {s t : Contents} {key value k : Bytes}

theorem nodup_keys (s : Contents) : (s.rows.map (·.1)).Nodup :=
  List.pairwise_map.2 (s.ascending.imp Bytes.ne_of_lt)

theorem mem_rows : (key, value) ∈ s.rows ↔ s.get? key = some value := mem_iff_lookup s.nodup_keys

/-- Contents are determined by the values of all keys. -/
theorem ext_get? (h : ∀ key, s.get? key = t.get? key) : s = t := by
  apply Contents.ext
  apply eq_of_ascending_of_mem_iff s.ascending t.ascending
  rintro ⟨key, value⟩
  rw [mem_rows, mem_rows, h]

theorem get?_put : (s.put key value).get? k = if k = key then some value else s.get? k := by
  apply Option.ext
  intro v
  rw [← mem_rows]
  simp only [put, List.mem_append, List.mem_cons, List.mem_filter, decide_eq_true_eq, mem_rows, Prod.mk.injEq]
  rcases Bytes.lt_or_eq_or_gt k key with h | h | h
  all_goals grind

theorem get?_delete : (s.delete key).get? k = if k = key then none else s.get? k := by
  apply Option.ext
  intro v
  rw [← mem_rows]
  simp only [delete, List.mem_filter, mem_rows]
  by_cases h : k = key <;> simp [h]

theorem mem_scan {start : Bytes} {row : Row} :
    row ∈ s.scan start ↔ start <+: row.1 ∧ s.get? row.1 = some row.2 := by
  simp [scan, List.mem_filter, ← mem_rows, and_comm]

theorem ascending_scan (s : Contents) (start : Bytes) : (s.scan start).Pairwise fun a b => a.1 < b.1 :=
  s.ascending.filter _

end Contents

end Schemata.Table

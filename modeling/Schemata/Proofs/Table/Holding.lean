import Schemata.Proofs.Table.Contents
import Schemata.Table.Store

/-!
# Tables hold contents

A state of a table in memory, in a file, or of either kind holds contents when it shows the same rows
(`Indexed.Holds`, `Relation.Holds`, `Store.Holds`). A command to such a table is answered as the contents answer it,
and leaves a table that holds the contents left (`Indexed.represents`, `Relation.represents`, `Store.represents`).
-/

namespace Schemata.Table

/-- Every command to a state that holds contents is answered from these and leaves a state that holds what they
become. -/
def Backend.Represents {σ : Type} (backend : Backend σ) (holds : σ → Contents → Prop) : Prop :=
  ∀ command state contents, holds state contents →
    (backend.answer command state).1 = .ok (contents.answer command).1 ∧
      holds (backend.answer command state).2 (contents.answer command).2

/-! ## Ordered keys -/

section Keys

variable {keys : List Bytes} {key k : Bytes} {P : Bytes → Bool}

/-- The keys from the first one on that is not in an initial part of the order. -/
theorem mem_dropWhile_iff (h : keys.Pairwise (· < ·)) (down : ∀ a b, a < b → P b = true → P a = true) :
    k ∈ keys.dropWhile P ↔ k ∈ keys ∧ P k = false := by
  induction keys with
  | nil => simp
  | cons a rest ih =>
    obtain ⟨ha, hrest⟩ := List.pairwise_cons.1 h
    by_cases hP : P a = true
    · rw [List.dropWhile_cons_of_pos hP, ih hrest, List.mem_cons]
      grind
    · rw [List.dropWhile_cons_of_neg hP, List.mem_cons]
      grind

/-- The keys before the first one that is not in an initial part of the order. -/
theorem mem_takeWhile_iff (h : keys.Pairwise (· < ·)) (down : ∀ a b, a < b → P b = true → P a = true) :
    k ∈ keys.takeWhile P ↔ k ∈ keys ∧ P k = true := by
  induction keys with
  | nil => simp
  | cons a rest ih =>
    obtain ⟨ha, hrest⟩ := List.pairwise_cons.1 h
    by_cases hP : P a = true
    · rw [List.takeWhile_cons_of_pos hP, List.mem_cons, List.mem_cons, ih hrest]
      grind
    · rw [List.takeWhile_cons_of_neg hP, List.mem_cons]
      grind

/-- Coming before a bound is an initial part of the order. -/
theorem before_of_lt_of_before (bound : Bytes) :
    ∀ a b : Bytes, a < b → b.before bound = true → a.before bound = true := by
  intro a b hab hb
  rw [Bytes.before_iff_lt] at hb ⊢
  exact List.lt_trans hab hb

theorem not_before_of_lt (bound : Bytes) :
    ∀ a b : Bytes, a < b → (!bound.before b) = true → (!bound.before a) = true := by
  intro a b hab hb
  rw [Bool.not_eq_true', ← Bool.not_eq_true, Bytes.before_iff_lt] at hb ⊢
  exact fun h => hb (List.lt_trans h hab)

theorem mem_insertKey : k ∈ Indexed.insertKey key keys ↔ k = key ∨ k ∈ keys := by
  have h := congrArg (k ∈ ·) (List.takeWhile_append_dropWhile (p := fun k => !key.before k) (l := keys))
  simp only [List.mem_append, eq_iff_iff] at h
  simp only [Indexed.insertKey, List.mem_append, List.mem_cons, ← h]
  grind

theorem ascending_insertKey (h : keys.Pairwise (· < ·)) (hk : key ∉ keys) :
    (Indexed.insertKey key keys).Pairwise (· < ·) := by
  rw [Indexed.insertKey, List.pairwise_append, List.pairwise_cons]
  have hbefore : ∀ a ∈ keys.takeWhile (fun k => !key.before k), a < key := by
    intro a ha
    obtain ⟨hmem, hn⟩ := (mem_takeWhile_iff h (not_before_of_lt key)).1 ha
    rw [Bool.not_eq_true', ← Bool.not_eq_true, Bytes.before_iff_lt] at hn
    rcases Bytes.lt_or_eq_or_gt a key with h' | rfl | h'
    · exact h'
    · exact absurd hmem hk
    · exact absurd h' hn
  have hafter : ∀ b ∈ keys.dropWhile (fun k => !key.before k), key < b := by
    intro b hb
    have := ((mem_dropWhile_iff h (not_before_of_lt key)).1 hb).2
    rwa [Bool.not_eq_false', Bytes.before_iff_lt] at this
  refine ⟨h.sublist (List.takeWhile_sublist _), ⟨hafter, h.sublist (List.dropWhile_sublist _)⟩, ?_⟩
  intro a ha b hb
  rcases List.mem_cons.1 hb with rfl | hb
  · exact hbefore a ha
  · exact List.lt_trans (hbefore a ha) (hafter b hb)

/-- The part of ordered keys that a range cuts out has the keys with the range's start. -/
theorem mem_keysFrom {table : Indexed} (h : table.keys.Pairwise (· < ·)) (start : Bytes) :
    k ∈ table.keysFrom start ↔ k ∈ table.keys ∧ start <+: k := by
  have hdrop := h.sublist (List.dropWhile_sublist (·.before start))
  rw [Bytes.isPrefix_iff_range, Indexed.keysFrom]
  cases hs : start.successor? with
  | none => simp [mem_dropWhile_iff h (before_of_lt_of_before start), ← Bytes.before_iff_lt]
  | some stop =>
    simp [mem_takeWhile_iff hdrop (before_of_lt_of_before stop), mem_dropWhile_iff h (before_of_lt_of_before start),
      ← Bytes.before_iff_lt, and_assoc]

theorem ascending_keysFrom {table : Indexed} (h : table.keys.Pairwise (· < ·)) (start : Bytes) :
    (table.keysFrom start).Pairwise (· < ·) := by
  have hdrop := h.sublist (List.dropWhile_sublist (·.before start))
  rw [Indexed.keysFrom]
  cases start.successor? with
  | none => exact hdrop
  | some stop => exact hdrop.sublist (List.takeWhile_sublist _)

end Keys

/-! ## Looking up -/

/-- Taking a key out of an association list. -/
theorem lookup_filter_ne {α β : Type} [BEq α] [LawfulBEq α] [DecidableEq α] (rows : List (α × β)) (key k : α) :
    (rows.filter (·.1 ≠ key)).lookup k = if k = key then none else rows.lookup k := by
  induction rows with
  | nil => simp
  | cons row rest ih =>
    obtain ⟨a, v⟩ := row
    rw [List.filter_cons, List.lookup_cons]
    by_cases ha : a = key
    · by_cases hk : k = key
      · simpa [ha, hk] using ih
      · simpa [ha, hk, beq_false_of_ne hk] using ih
    · by_cases hka : k = a
      · simp [hka, ha]
      · simpa [ha, beq_false_of_ne hka, List.lookup_cons] using ih

section Lookup

variable (rows : List Row) (key value k : Bytes)

theorem lookup_map_replace : (rows.map fun row => if row.1 = key then (key, value) else row).lookup k =
    if k = key then (rows.lookup key).map fun _ => value else rows.lookup k := by
  induction rows with
  | nil => simp
  | cons row rest ih =>
    obtain ⟨a, v⟩ := row
    rw [List.map_cons, List.lookup_cons, List.lookup_cons]
    by_cases ha : a = key
    · by_cases hk : k = key
      · simp [ha, hk]
      · simp [ha, hk, beq_false_of_ne hk, ih, List.lookup_cons]
    · by_cases hk : k = key
      · subst hk
        simp [ha, beq_false_of_ne (Ne.symm ha), ih]
      · by_cases hka : k = a <;> simp [ha, hk, hka, ih, List.lookup_cons]

theorem find?_eq_lookup : (rows.find? (·.1 = key)).map (·.2) = rows.lookup key := by
  induction rows with
  | nil => rfl
  | cons row rest ih =>
    rw [List.find?_cons, List.lookup_cons]
    by_cases h : row.1 = key
    · simp [h]
    · simpa [h, beq_false_of_ne (Ne.symm h)] using ih

end Lookup

/-! ## Tables in memory -/

namespace Indexed

/-- The index has the keys of the contents in order, and the values are those of the contents. -/
structure Holds (table : Indexed) (s : Contents) : Prop where
  ascending : table.keys.Pairwise (· < ·)
  /-- The index has the keys that have values. -/
  mem_keys : ∀ key, key ∈ table.keys ↔ (table.get? key).isSome
  /-- The values are those of the contents. -/
  get?_eq : ∀ key, table.get? key = s.get? key

theorem holds_empty : Holds empty .empty := ⟨.nil, fun _ => by simp [empty, get?], fun _ => rfl⟩

theorem get?_put (table : Indexed) (key value k : Bytes) :
    (table.put key value).get? k = if k = key then some value else table.get? k := by
  unfold put
  split
  · rename_i v h
    simp only [get?] at h ⊢
    rw [lookup_map_replace, h, Option.map_some]
  · rename_i h
    simp only [get?] at h ⊢
    rw [List.lookup_append, List.lookup_cons, List.lookup_nil]
    by_cases hk : k = key
    · subst hk
      simp [h]
    · simp [hk, beq_false_of_ne hk]

theorem get?_delete (table : Indexed) (key k : Bytes) :
    (table.delete key).get? k = if k = key then none else table.get? k := by
  unfold delete
  split
  · exact lookup_filter_ne table.values key k
  · rename_i h
    by_cases hk : k = key
    · simp [hk, h]
    · simp [hk]

namespace Holds

variable {table : Indexed} {s : Contents} (h : table.Holds s)
include h

theorem put (key value : Bytes) : (table.put key value).Holds (s.put key value) where
  ascending := by
    unfold Indexed.put
    split
    · exact h.ascending
    · rename_i hnone
      exact ascending_insertKey h.ascending (by rw [h.mem_keys, hnone]; simp)
  mem_keys k := by
    rw [Indexed.get?_put]
    unfold Indexed.put
    split
    · rename_i v hsome
      by_cases hk : k = key
      · simp [hk, h.mem_keys, hsome]
      · simp [hk, h.mem_keys]
    · rw [mem_insertKey, h.mem_keys]
      by_cases hk : k = key <;> simp [hk]
  get?_eq k := by rw [Indexed.get?_put, Contents.get?_put, h.get?_eq]

theorem delete (key : Bytes) : (table.delete key).Holds (s.delete key) where
  ascending := by
    unfold Indexed.delete
    split
    · exact h.ascending.sublist List.erase_sublist
    · exact h.ascending
  mem_keys k := by
    have hnodup : table.keys.Nodup := h.ascending.imp Bytes.ne_of_lt
    rw [Indexed.get?_delete]
    unfold Indexed.delete
    split
    · rw [hnodup.mem_erase_iff, h.mem_keys]
      by_cases hk : k = key <;> simp [hk]
    · rename_i hnone
      rw [h.mem_keys]
      by_cases hk : k = key <;> simp [hk, hnone]
  get?_eq k := by rw [Indexed.get?_delete, Contents.get?_delete, h.get?_eq]

theorem scan_eq (start : Bytes) : table.scan start = s.scan start := by
  apply eq_of_ascending_of_mem_iff _ (s.ascending_scan start)
  · rintro ⟨key, value⟩
    rw [Contents.mem_scan, Indexed.scan, List.mem_filterMap, ← h.get?_eq]
    simp only [mem_keysFrom h.ascending, Option.map_eq_some_iff, Prod.mk.injEq, h.mem_keys]
    grind
  · rw [Indexed.scan, List.pairwise_filterMap]
    refine (ascending_keysFrom h.ascending start).imp fun {a b} hab x hx y hy => ?_
    obtain ⟨_, _, rfl⟩ := Option.map_eq_some_iff.1 hx
    obtain ⟨_, _, rfl⟩ := Option.map_eq_some_iff.1 hy
    exact hab

end Holds

/-- A table in memory answers as the contents it holds. -/
theorem represents : backend.Represents Holds := by
  intro command table s h
  cases command with
  | get key => exact ⟨congrArg Except.ok (h.get?_eq key), h⟩
  | put key value => exact ⟨rfl, h.put key value⟩
  | delete key => exact ⟨rfl, h.delete key⟩
  | scan start => exact ⟨congrArg Except.ok (h.scan_eq start), h⟩

end Indexed

/-! ## Tables in a file -/

namespace Relation

/-- The file is sound and its rows are those of the contents in some order. -/
structure Holds (table : Relation) (s : Contents) : Prop where
  sound : table.damaged = false
  perm : table.rows.Perm s.rows

theorem holds_empty : Holds empty .empty := ⟨rfl, .nil⟩

theorem inRange_iff (start key : Bytes) : Relation.inRange start key = true ↔ start <+: key := by
  rw [Bytes.isPrefix_iff_range, Relation.inRange]
  cases start.successor? <;> simp [← Bytes.before_iff_lt]

/-- After sorting, no row stands behind one with a greater key. -/
theorem sorted_mergeSort (rows : List Row) :
    (rows.mergeSort fun a b => !b.1.before a.1).Pairwise fun a b => !b.1.before a.1 := by
  apply List.pairwise_mergeSort
  · intro a b c
    simp only [Bool.not_eq_true', ← Bool.not_eq_true, Bytes.before_iff_lt]
    grind
  · intro a b
    simp only [Bool.or_eq_true, Bool.not_eq_true', ← Bool.not_eq_true, Bytes.before_iff_lt]
    grind

namespace Holds

variable {table : Relation} {s : Contents} (h : table.Holds s)
include h

theorem nodup_keys : (table.rows.map (·.1)).Nodup := (h.perm.map _).nodup_iff.2 s.nodup_keys

theorem get?_eq (key : Bytes) : Relation.get? table.rows key = s.get? key := by
  rw [Relation.get?, find?_eq_lookup]
  apply Option.ext
  intro value
  rw [← mem_iff_lookup h.nodup_keys, h.perm.mem_iff, Contents.mem_rows]

theorem delete (key : Bytes) : Holds ⟨Relation.delete table.rows key, false⟩ (s.delete key) :=
  ⟨rfl, h.perm.filter _⟩

theorem upsert (key value : Bytes) : Holds ⟨Relation.upsert table.rows key value, false⟩ (s.put key value) := by
  refine ⟨rfl, ?_⟩
  have hkeys : ((Relation.upsert table.rows key value).map (·.1)).Nodup := by
    unfold Relation.upsert
    split
    · rw [List.map_map]
      have : ((·.1) ∘ fun row : Row => if row.1 = key then (key, value) else row) = fun row : Row => row.1 := by
        funext row
        by_cases hr : row.1 = key <;> simp [hr]
      rw [this]
      exact h.nodup_keys
    · rename_i hany
      rw [List.map_cons, List.nodup_cons]
      refine ⟨?_, h.nodup_keys⟩
      simpa using hany
  have hlookup : ∀ k, (Relation.upsert table.rows key value).lookup k = (s.put key value).get? k := by
    intro k
    have hget : ∀ k, table.rows.lookup k = s.get? k := fun k => by rw [← find?_eq_lookup]; exact h.get?_eq k
    rw [Contents.get?_put]
    unfold Relation.upsert
    split
    · rename_i hany
      obtain ⟨row, hrow, hk⟩ := List.any_eq_true.1 hany
      have hsome : table.rows.lookup key = some row.2 := by
        rw [← mem_iff_lookup h.nodup_keys, ← of_decide_eq_true hk]
        exact hrow
      rw [lookup_map_replace, hsome, hget, Option.map_some]
    · rw [List.lookup_cons, hget]
      by_cases hk : k = key <;> simp [hk, beq_false_of_ne]
  rw [List.perm_ext_iff_of_nodup (.of_map _ hkeys) (.of_map _ (s.put key value).nodup_keys)]
  rintro ⟨k, v⟩
  rw [mem_iff_lookup hkeys, hlookup, Contents.mem_rows]

theorem scan_eq (start : Bytes) : Relation.scan table.rows start = s.scan start := by
  apply eq_of_ascending_of_mem_iff _ (s.ascending_scan start)
  · rintro ⟨key, value⟩
    rw [Relation.scan, List.mem_mergeSort, List.mem_filter, h.perm.mem_iff, Contents.mem_rows, inRange_iff,
      Contents.mem_scan, and_comm]
  · have hsorted : (Relation.scan table.rows start).Pairwise fun a b => !b.1.before a.1 := sorted_mergeSort _
    have hne : (Relation.scan table.rows start).Pairwise fun a b => a.1 ≠ b.1 := by
      rw [Relation.scan, (List.mergeSort_perm _ _).pairwise_iff fun {a b} hab => Ne.symm hab]
      exact (List.pairwise_map.1 h.nodup_keys).filter _
    refine (hsorted.and hne).imp fun {a b} hab => ?_
    obtain ⟨hle, hne⟩ := hab
    rw [Bool.not_eq_true', ← Bool.not_eq_true, Bytes.before_iff_lt] at hle
    exact (Bytes.lt_or_eq_or_gt a.1 b.1).resolve_right (fun h' => h'.elim hne hle)

end Holds

/-- A table in a file answers as the contents it holds. -/
theorem represents : backend.Represents Holds := by
  intro command table s h
  simp only [backend, h.sound, Bool.false_eq_true, ↓reduceIte]
  cases command with
  | get key => exact ⟨congrArg Except.ok (h.get?_eq key), h⟩
  | put key value => exact ⟨rfl, h.upsert key value⟩
  | delete key => exact ⟨rfl, h.delete key⟩
  | scan start => exact ⟨congrArg Except.ok (h.scan_eq start), h⟩

end Relation

/-! ## Either kind -/

namespace Store

/-- A store holds what its table holds. -/
def Holds : Store → Contents → Prop
  | .memory table, s => table.Holds s
  | .file table, s => table.Holds s
  | .unkept, _ => False

/-- Either kind of table answers as the contents it holds. -/
theorem represents : backend.Represents Holds := by
  intro command store s h
  cases store with
  | memory table => exact Indexed.represents command table s h
  | file table => exact Relation.represents command table s h
  | unkept => cases h

/-- A table that was just made, of either kind. -/
inductive IsNew : Store → Prop
  | memory : IsNew (.memory .empty)
  | file : IsNew (.file .empty)

theorem IsNew.holds {store : Store} (h : store.IsNew) : store.Holds .empty := by
  cases h with
  | memory => exact Indexed.holds_empty
  | file => exact Relation.holds_empty

/-- The value that a store answers a key with. -/
def row? (store : Store) (key : Bytes) : Option Bytes := (backend.answer (.get key) store).1.toOption.join

theorem Holds.row?_eq {store : Store} {s : Contents} (h : store.Holds s) (key : Bytes) :
    store.row? key = s.get? key := by
  rw [row?, (represents (.get key) store s h).1]
  rfl

/-- The rows of a store are those of the contents that it holds. -/
theorem Holds.rows_eq {store : Store} {s : Contents} (h : store.Holds s) : store.rows = .ok s.rows := by
  rw [rows, (represents (.scan []) store s h).1]
  simp [Contents.answer, Contents.scan]

/-- A store holds one contents only. -/
theorem Holds.unique {store : Store} {s t : Contents} (hs : store.Holds s) (ht : store.Holds t) : s = t :=
  Contents.ext_get? fun key => by rw [← hs.row?_eq, ← ht.row?_eq]

end Store

end Schemata.Table

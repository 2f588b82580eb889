import Schemata.Proofs.Catalog.DescriptorRow
import Schemata.Proofs.Catalog.Keys
import Schemata.Proofs.Catalog.Work

/-!
# The rows of identities in a table's contents

- The value of an identity's row (`Identity.row?`), and what a put and erasures change (`row?_putRow`,
  `row?_eraseRows`).
- Contents are `Orderly` when every row belongs to some identity and holds what such a row can hold. Puts of what a row
  can hold and erasures keep this (`Orderly.putRow`, `Orderly.eraseRows`).
- In orderly contents the rows of an identity can all be read: the counter (`numberOfRow_counter`), the descriptor
  (`ofRow_descriptor`), and the versions, which stand in ascending order (`mem_versionsIn`, `ascending_versionsIn`).
- The highest of the counter and the versions (`latestIn_le_iff`, `latestIn_eq_or`) has a row to hold it
  (`latestIn_le`).
-/

namespace Schemata.Catalog

open Table (Contents Command)

namespace Identity

variable {i j : Identity} {row row' : RowName} {key octets : Bytes} {s t : Contents}

/-! ## One row -/

/-- The value of a row, if there is such a row. -/
def row? (i : Identity) (s : Contents) (row : RowName) : Option Bytes :=
  match i.key row with
  | .ok key => s.get? key
  | .error _ => none

/-- Writes a row. -/
def putRow (i : Identity) (s : Contents) (row : RowName) (octets : Bytes) : Contents :=
  match i.key row with
  | .ok key => s.put key octets
  | .error _ => s

/-- Takes a row out. -/
def eraseRow (i : Identity) (s : Contents) (row : RowName) : Contents :=
  match i.key row with
  | .ok key => s.delete key
  | .error _ => s

theorem row?_of_key (h : i.key row = .ok key) : i.row? s row = s.get? key := by rw [row?, h]

theorem putRow_of_key (h : i.key row = .ok key) : i.putRow s row octets = s.put key octets := by rw [putRow, h]

theorem eraseRow_of_key (h : i.key row = .ok key) : i.eraseRow s row = s.delete key := by rw [eraseRow, h]

/-- A row that is there has a key. -/
theorem key_of_row? (h : i.row? s row = some octets) : ∃ key, i.key row = .ok key ∧ s.get? key = some octets := by
  unfold row? at h
  split at h
  · rename_i key hkey
    exact ⟨key, hkey, h⟩
  · cases h

theorem fits_of_row? (h : i.row? s row = some octets) : i.Fits := by
  obtain ⟨key, hkey, -⟩ := key_of_row? h
  exact (key_eq_ok_iff.1 hkey).1

theorem row?_putRow (h : i.key row = .ok key) :
    j.row? (i.putRow s row octets) row' = if j = i ∧ row' = row then some octets else j.row? s row' := by
  rw [putRow_of_key h]
  cases hj : j.key row' with
  | error reason =>
    have hne : ¬(j = i ∧ row' = row) := by
      rintro ⟨rfl, rfl⟩
      rw [h] at hj
      cases hj
    simp [row?, hj, hne]
  | ok key' =>
    rw [row?_of_key hj, row?_of_key hj, Contents.get?_put]
    congr 1
    rw [eq_iff_iff]
    constructor
    · rintro rfl
      exact key_injective hj h
    · rintro ⟨rfl, rfl⟩
      rw [h] at hj
      exact (Except.ok.inj hj).symm

theorem row?_eraseRow : j.row? (i.eraseRow s row) row' = if j = i ∧ row' = row then none else j.row? s row' := by
  cases hi : i.key row with
  | error reason =>
    have hsame : i.eraseRow s row = s := by rw [eraseRow, hi]
    rw [hsame]
    split
    · rename_i h
      rw [row?, h.1, h.2, hi]
    · rfl
  | ok key =>
    rw [eraseRow_of_key hi]
    cases hj : j.key row' with
    | error reason => simp [row?, hj]
    | ok key' =>
      rw [row?_of_key hj, row?_of_key hj, Contents.get?_delete]
      congr 1
      rw [eq_iff_iff]
      constructor
      · rintro rfl
        exact key_injective hj hi
      · rintro ⟨rfl, rfl⟩
        rw [hi] at hj
        exact (Except.ok.inj hj).symm

theorem row?_putDescriptor (hi : i.Fits) : i.row? (i.putRow s .descriptor octets) row =
    if row = .descriptor then some octets else i.row? s row := by
  rw [row?_putRow (key_descriptor hi)]
  simp

theorem row?_putRow_of_ne (hj : j ≠ i) : j.row? (i.putRow s row octets) row' = j.row? s row' := by
  cases hkey : i.key row with
  | error reason => rw [putRow, hkey]
  | ok key => rw [row?_putRow hkey, if_neg fun h => hj h.1]

/-- Takes rows out one after the other. -/
def eraseRows (i : Identity) (rows : List RowName) (s : Contents) : Contents := rows.foldl i.eraseRow s

@[simp] theorem eraseRows_nil : i.eraseRows [] s = s := rfl

@[simp] theorem eraseRows_cons {rows : List RowName} :
    i.eraseRows (row :: rows) s = i.eraseRows rows (i.eraseRow s row) := rfl

theorem eraseRows_append {rows rows' : List RowName} :
    i.eraseRows (rows ++ rows') s = i.eraseRows rows' (i.eraseRows rows s) := List.foldl_append

theorem row?_eraseRows {rows : List RowName} :
    j.row? (i.eraseRows rows s) row' = if j = i ∧ row' ∈ rows then none else j.row? s row' := by
  induction rows generalizing s with
  | nil => simp
  | cons row rest ih =>
    rw [eraseRows_cons, ih, row?_eraseRow]
    grind

theorem row?_eraseRow_of_ne (hj : j ≠ i) : j.row? (i.eraseRow s row) row' = j.row? s row' := by
  rw [row?_eraseRow, if_neg fun h => hj h.1]

theorem row?_eraseRows_of_ne {rows : List RowName} (hj : j ≠ i) : j.row? (i.eraseRows rows s) row' = j.row? s row' := by
  rw [row?_eraseRows, if_neg fun h => hj h.1]

/-! ## What the rows of an identity say -/

/-- The latest version that was assigned, as its row says. -/
def counterIn (i : Identity) (s : Contents) : Nat := ((i.row? s .counter).map Bytes.ofBigEndian).getD 0

/-- The descriptor, if there is one that can be read. -/
def descriptorIn (i : Identity) (s : Contents) : Option Descriptor :=
  (i.row? s .descriptor).bind fun octets => (Descriptor.ofRow i octets).toOption

/-- The identity has a descriptor. -/
def DescribedIn (i : Identity) (s : Contents) : Prop := i.row? s .descriptor ≠ none

/-- The version in a row whose key has the start of an identity's versions. -/
def versionOf (i : Identity) (row : Table.Row) : Version :=
  ⟨Bytes.ofBigEndian (row.1.drop i.versionStart.length), row.2⟩

/-- The versions, the lowest first. -/
def versionsIn (i : Identity) (s : Contents) : List Version := (s.scan i.versionStart).map i.versionOf

/-- The highest of the counter and the versions. -/
def latestIn (i : Identity) (s : Contents) : Nat :=
  (i.versionsIn s).foldl (fun latest version => max latest version.number) (i.counterIn s)

theorem nextVersion_eq : nextVersion (i.counterIn s) (i.versionsIn s) = i.latestIn s + 1 := rfl

theorem foldl_max_le_iff {versions : List Version} {counter bound : Nat} :
    versions.foldl (fun latest version => max latest version.number) counter ≤ bound ↔
      counter ≤ bound ∧ ∀ version ∈ versions, version.number ≤ bound := by
  induction versions generalizing counter with
  | nil => simp
  | cons version rest ih =>
    rw [List.foldl_cons, ih, List.forall_mem_cons, Nat.max_le, and_assoc]

end Identity

/-! ## Orderly contents -/

/-- What a row can hold: a counter a version's number, a descriptor what a draft asks for, and a version, of which the
first one is one, a content. -/
def RowName.Admits : RowName → Bytes → Prop
  | .counter, octets => ∃ n, 1 ≤ n ∧ n ≤ maxVersion ∧ octets = Bytes.bigEndian 8 n
  | .descriptor, octets => ∃ draft format, octets = (Draft.descriptor draft format).row
  | .version n, octets => 1 ≤ n ∧ octets ≠ []

/-- Every row belongs to an identity and holds what it can hold. -/
def Orderly (s : Contents) : Prop :=
  ∀ key octets, s.get? key = some octets → ∃ (i : Identity) (row : RowName), i.key row = .ok key ∧ row.Admits octets

namespace Orderly

variable {s : Contents} {i : Identity} {row : RowName} {octets content : Bytes}

theorem empty : Orderly .empty := fun _ _ h => by cases h

theorem admits (hs : Orderly s) (h : i.row? s row = some octets) : row.Admits octets := by
  obtain ⟨key, hkey, hget⟩ := Identity.key_of_row? h
  obtain ⟨j, row', hj, hadmits⟩ := hs key octets hget
  obtain ⟨rfl, rfl⟩ := Identity.key_injective hkey hj
  exact hadmits

theorem putRow (hs : Orderly s) (h : row.Admits octets) : Orderly (i.putRow s row octets) := by
  intro key value hget
  cases hkey : i.key row with
  | error reason =>
    rw [Identity.putRow, hkey] at hget
    exact hs key value hget
  | ok key' =>
    rw [Identity.putRow_of_key hkey, Contents.get?_put] at hget
    split at hget
    · rename_i he
      cases hget
      exact ⟨i, row, he ▸ hkey, h⟩
    · exact hs key value hget

theorem eraseRow (hs : Orderly s) : Orderly (i.eraseRow s row) := by
  intro key value hget
  cases hkey : i.key row with
  | error reason =>
    rw [Identity.eraseRow, hkey] at hget
    exact hs key value hget
  | ok key' =>
    rw [Identity.eraseRow_of_key hkey, Contents.get?_delete] at hget
    split at hget
    · cases hget
    · exact hs key value hget

theorem eraseRows (hs : Orderly s) {rows : List RowName} : Orderly (i.eraseRows rows s) := by
  induction rows generalizing s with
  | nil => exact hs
  | cons row rest ih => exact ih hs.eraseRow

/-! ## The counter and the descriptor -/

theorem numberOfRow_counter (hs : Orderly s) (h : i.row? s .counter = some octets) :
    numberOfRow octets = .ok (i.counterIn s) := by
  obtain ⟨n, -, -, rfl⟩ := hs.admits h
  rw [Identity.counterIn, h, numberOfRow, if_pos (Bytes.length_bigEndian 8 n), Option.map_some, Option.getD_some]

theorem counterIn_le (hs : Orderly s) : i.counterIn s ≤ maxVersion := by
  unfold Identity.counterIn
  cases h : i.row? s .counter with
  | none => exact Nat.zero_le _
  | some octets =>
    obtain ⟨n, -, hn, rfl⟩ := hs.admits h
    rw [Option.map_some, Option.getD_some, Bytes.ofBigEndian_bigEndian (Nat.lt_of_le_of_lt hn maxVersion_lt)]
    exact hn

theorem ofRow_descriptor (hs : Orderly s) (h : i.row? s .descriptor = some octets) :
    ∃ descriptor, Descriptor.ofRow i octets = .ok descriptor ∧ i.descriptorIn s = some descriptor := by
  obtain ⟨draft, format, rfl⟩ := hs.admits h
  have hread := Descriptor.ofRow_row i draft format
  exact ⟨_, hread, by rw [Identity.descriptorIn, h, Option.bind_some, hread]; rfl⟩

theorem descriptorIn_eq_none_iff (hs : Orderly s) : i.descriptorIn s = none ↔ ¬i.DescribedIn s := by
  unfold Identity.DescribedIn
  cases h : i.row? s .descriptor with
  | none => simp [Identity.descriptorIn, h]
  | some octets =>
    obtain ⟨descriptor, -, hd⟩ := hs.ofRow_descriptor h
    simp [hd]

/-! ## The versions -/

/-- A version's row has a key, so its number is one that a row can hold. -/
theorem number_of_row? {n : Int} (hs : Orderly s) (h : i.row? s (.version n) = some content) :
    ∃ m : Nat, n = m ∧ 1 ≤ m ∧ m ≤ maxVersion ∧ s.get? (i.versionStart ++ Bytes.bigEndian 8 m) = some content := by
  obtain ⟨key, hkey, hget⟩ := Identity.key_of_row? h
  obtain ⟨-, m, rfl, hm, rfl⟩ := Identity.key_version_eq_ok_iff.1 hkey
  have hn := (hs.admits h).1
  exact ⟨m, rfl, by omega, hm, hget⟩

theorem row?_version_of_gt {n : Int} (hs : Orderly s) (hn : maxVersion < n) : i.row? s (.version n) = none := by
  cases h : i.row? s (.version n) with
  | none => rfl
  | some content =>
    obtain ⟨m, rfl, -, hm, -⟩ := hs.number_of_row? h
    omega

theorem row?_version_of_lt {n : Int} (hs : Orderly s) (hn : n < 1) : i.row? s (.version n) = none := by
  cases h : i.row? s (.version n) with
  | none => rfl
  | some content =>
    obtain ⟨m, rfl, hm, -, -⟩ := hs.number_of_row? h
    omega

/-- The rows that a scan of an identity's versions finds. -/
theorem of_mem_scan (hs : Orderly s) (hi : i.Fits) {row : Table.Row} (h : row ∈ s.scan i.versionStart) :
    ∃ n : Nat, 1 ≤ n ∧ n ≤ maxVersion ∧ row.1 = i.versionStart ++ Bytes.bigEndian 8 n ∧
      i.row? s (.version n) = some row.2 := by
  obtain ⟨hstart, hget⟩ := Contents.mem_scan.1 h
  obtain ⟨j, name, hkey, hadmits⟩ := hs _ _ hget
  obtain ⟨rfl, n, rfl⟩ := (Identity.isPrefix_versionStart hi hkey).1 hstart
  have hrow : j.row? s (.version n) = some row.2 := by rw [Identity.row?_of_key hkey, hget]
  obtain ⟨-, m, he, hm, hrow1⟩ := Identity.key_version_eq_ok_iff.1 hkey
  obtain rfl : n = m := by omega
  have hn := (hs.admits hrow).1
  exact ⟨n, by omega, hm, hrow1, hrow⟩

/-- The version that such a row is. -/
theorem versionOf_eq {row : Table.Row} {n : Nat} (hn : n ≤ maxVersion)
    (h : row.1 = i.versionStart ++ Bytes.bigEndian 8 n) : i.versionOf row = ⟨n, row.2⟩ := by
  rw [Identity.versionOf, h, List.drop_left, Bytes.ofBigEndian_bigEndian (Nat.lt_of_le_of_lt hn maxVersion_lt)]

theorem versionOfRow_of_mem_scan (hs : Orderly s) (hi : i.Fits) {row : Table.Row} (h : row ∈ s.scan i.versionStart) :
    versionOfRow i.versionStart.length row = .ok (i.versionOf row) := by
  obtain ⟨n, -, -, hkey, -⟩ := hs.of_mem_scan hi h
  rw [versionOfRow, Identity.versionOf, hkey, List.drop_left, numberOfRow, if_pos (Bytes.length_bigEndian 8 n)]
  rfl

/-- All versions can be read. -/
theorem mapM_versionOfRow (hs : Orderly s) (hi : i.Fits) :
    (s.scan i.versionStart).mapM (versionOfRow i.versionStart.length) = .ok (i.versionsIn s) := by
  have h : ∀ rows : List Table.Row, (∀ row ∈ rows, row ∈ s.scan i.versionStart) →
      rows.mapM (versionOfRow i.versionStart.length) = .ok (rows.map i.versionOf) := by
    intro rows hrows
    induction rows with
    | nil => rfl
    | cons row rest ih =>
      rw [List.mapM_cons, hs.versionOfRow_of_mem_scan hi (hrows row List.mem_cons_self),
        ih fun r hr => hrows r (List.mem_cons_of_mem _ hr)]
      rfl
  exact h _ fun _ h => h

/-- **The versions of an identity are the contents of its rows.** -/
theorem mem_versionsIn (hs : Orderly s) (hi : i.Fits) {n : Nat} :
    ⟨n, content⟩ ∈ i.versionsIn s ↔ i.row? s (.version n) = some content := by
  rw [Identity.versionsIn, List.mem_map]
  constructor
  · rintro ⟨row, hrow, heq⟩
    obtain ⟨m, -, hm, hkey, hget⟩ := hs.of_mem_scan hi hrow
    rw [versionOf_eq hm hkey] at heq
    cases heq
    exact hget
  · intro h
    obtain ⟨m, he, -, hm, hget⟩ := hs.number_of_row? h
    obtain rfl : n = m := by omega
    refine ⟨(i.versionStart ++ Bytes.bigEndian 8 n, content), ?_, versionOf_eq hm rfl⟩
    rw [Contents.mem_scan]
    exact ⟨List.prefix_append _ _, hget⟩

/-- The versions stand in ascending order. -/
theorem ascending_versionsIn (hs : Orderly s) (hi : i.Fits) :
    (i.versionsIn s).Pairwise fun a b => a.number < b.number := by
  rw [Identity.versionsIn, List.pairwise_map]
  refine List.Pairwise.imp_of_mem ?_ (s.ascending_scan i.versionStart)
  intro a b ha hb hab
  obtain ⟨n, -, hn, hna, -⟩ := hs.of_mem_scan hi ha
  obtain ⟨m, -, hm, hmb, -⟩ := hs.of_mem_scan hi hb
  rw [versionOf_eq hn hna, versionOf_eq hm hmb]
  rw [hna, hmb, Identity.version_key_lt_iff hn hm] at hab
  exact hab

/-! ## The latest number -/

theorem latestIn_le_iff (hs : Orderly s) (hi : i.Fits) {bound : Nat} : i.latestIn s ≤ bound ↔
    i.counterIn s ≤ bound ∧ ∀ n : Nat, i.row? s (.version n) ≠ none → n ≤ bound := by
  rw [Identity.latestIn, Identity.foldl_max_le_iff]
  refine and_congr_right fun _ => ⟨fun h n hn => ?_, ?_⟩
  · obtain ⟨content, hrow⟩ := Option.ne_none_iff_exists'.1 hn
    exact h ⟨n, content⟩ ((hs.mem_versionsIn hi).2 hrow)
  · rintro h ⟨n, content⟩ hmem
    exact h n (by rw [(hs.mem_versionsIn hi).1 hmem]; simp)

theorem counterIn_le_latestIn (hs : Orderly s) (hi : i.Fits) : i.counterIn s ≤ i.latestIn s :=
  ((hs.latestIn_le_iff hi).1 (Nat.le_refl _)).1

theorem le_latestIn (hs : Orderly s) {n : Nat} (h : i.row? s (.version n) ≠ none) : n ≤ i.latestIn s := by
  obtain ⟨content, hrow⟩ := Option.ne_none_iff_exists'.1 h
  exact ((hs.latestIn_le_iff (Identity.fits_of_row? hrow)).1 (Nat.le_refl _)).2 n h

/-- The latest number is the counter or a version. -/
theorem latestIn_eq_or (hs : Orderly s) (hi : i.Fits) :
    i.latestIn s = i.counterIn s ∨ i.row? s (.version (i.latestIn s)) ≠ none := by
  by_cases hrow : i.row? s (.version (i.latestIn s)) = none
  · left
    have hcounter := hs.counterIn_le_latestIn hi
    by_cases hne : i.latestIn s = i.counterIn s
    · exact hne
    · have hless : i.latestIn s ≤ i.latestIn s - 1 := by
        rw [hs.latestIn_le_iff hi]
        refine ⟨by omega, fun n hn => ?_⟩
        have hle := hs.le_latestIn hn
        have : n ≠ i.latestIn s := fun h => hn (h ▸ hrow)
        omega
      omega
  · exact Or.inr hrow

theorem latestIn_le (hs : Orderly s) (hi : i.Fits) : i.latestIn s ≤ maxVersion := by
  rw [hs.latestIn_le_iff hi]
  refine ⟨hs.counterIn_le, fun n hn => ?_⟩
  obtain ⟨content, hrow⟩ := Option.ne_none_iff_exists'.1 hn
  obtain ⟨m, he, -, hm, -⟩ := hs.number_of_row? hrow
  omega

end Orderly

end Schemata.Catalog

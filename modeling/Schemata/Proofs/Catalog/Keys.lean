import Schemata.Catalog.Rows
import Schemata.Proofs.Bytes.BigEndian
import Schemata.Proofs.Bytes.Range

/-!
# Keys tell identities and rows

An identity whose parts fit into keys has a stem (`Identity.Fits`, `stem_of_fits`). A key that starts with the stem of
an identity is none of another identity (`eq_of_append_stem`), different rows have different keys
(`key_injective`), and the rows that a scan of an identity's versions can meet are its versions
(`isPrefix_versionStart`). The keys of versions are in the order of their numbers, which stand in their last octets
(`layout_unambiguous`).
-/

namespace Schemata.Catalog

/-! ## Parts -/

/-- The octets of a part that fits: its size and the part. -/
def sizedOctets (text : String) : Bytes := Bytes.bigEndian 2 (Bytes.ofText text).length ++ Bytes.ofText text

theorem maxPartSize_lt : maxPartSize < 256 ^ 2 := by decide

theorem octets_of_fits {part : Part} {text : String} (h : (Bytes.ofText text).length ≤ maxPartSize) :
    part.octets text = .ok (sizedOctets text) := if_pos h

/-- What follows a part is known, and so is the part. -/
theorem eq_of_append_sizedOctets {a b : String} {x y : Bytes} (ha : (Bytes.ofText a).length ≤ maxPartSize)
    (hb : (Bytes.ofText b).length ≤ maxPartSize) (h : sizedOctets a ++ x = sizedOctets b ++ y) : a = b ∧ x = y := by
  have hmax := maxPartSize_lt
  simp only [sizedOctets, List.append_assoc] at h
  obtain ⟨hsize, hrest⟩ := List.append_inj h (by simp)
  have hlength := Bytes.bigEndian_injective (by omega) (by omega) hsize
  obtain ⟨htext, hxy⟩ := List.append_inj hrest hlength
  exact ⟨Bytes.ofText_injective htext, hxy⟩

/-! ## Rows -/

/-- The octets of a version's row. -/
theorem octets_version_eq_ok_iff {n : Int} {octets : Bytes} : (RowName.version n).octets = .ok octets ↔
    ∃ m : Nat, n = m ∧ m ≤ maxVersion ∧ octets = versionTag :: Bytes.bigEndian 8 m := by
  rw [RowName.octets]
  constructor
  · intro h
    split at h
    · rename_i hn
      exact ⟨n.toNat, by omega, by omega, (Except.ok.inj h).symm⟩
    · cases h
  · rintro ⟨m, rfl, hm, rfl⟩
    rw [if_pos ⟨Int.natCast_nonneg m, by exact_mod_cast hm⟩]
    rfl

theorem maxVersion_lt : maxVersion < 256 ^ 8 := by decide

theorem maxVersion_succ : maxVersion + 1 = 2 ^ 64 := by decide

theorem le_maxVersion_iff {n : Int} : n ≤ maxVersion ↔ n < 2 ^ 64 := by
  have hmax : (maxVersion : Int) = 2 ^ 64 - 1 := by decide
  omega

/-- Different rows have different octets: their kinds have different tags, and numbers are told by their octets. -/
theorem octets_injective {row row' : RowName} {octets : Bytes} (h : row.octets = .ok octets)
    (h' : row'.octets = .ok octets) : row = row' := by
  have hmax := maxVersion_lt
  cases row with
  | counter =>
    cases h
    cases row' with
    | counter => rfl
    | descriptor => exact absurd (List.cons.inj (Except.ok.inj h')).1 (by decide)
    | version m =>
      obtain ⟨_, -, -, he⟩ := octets_version_eq_ok_iff.1 h'
      exact absurd (List.cons.inj he).1 (by decide)
  | descriptor =>
    cases h
    cases row' with
    | counter => exact absurd (List.cons.inj (Except.ok.inj h')).1 (by decide)
    | descriptor => rfl
    | version m =>
      obtain ⟨_, -, -, he⟩ := octets_version_eq_ok_iff.1 h'
      exact absurd (List.cons.inj he).1 (by decide)
  | version n =>
    obtain ⟨a, rfl, ha, rfl⟩ := octets_version_eq_ok_iff.1 h
    cases row' with
    | counter => exact absurd (List.cons.inj (Except.ok.inj h')).1 (by decide)
    | descriptor => exact absurd (List.cons.inj (Except.ok.inj h')).1 (by decide)
    | version m =>
      obtain ⟨b, rfl, hb, he⟩ := octets_version_eq_ok_iff.1 h'
      have hab := Bytes.bigEndian_injective (by omega) (by omega) (List.cons.inj he).2
      rw [hab]

namespace Identity

/-! ## Stems -/

/-- Both parts fit into keys. -/
def Fits (identity : Identity) : Prop :=
  (Bytes.ofText identity.context).length ≤ maxPartSize ∧ (Bytes.ofText identity.label).length ≤ maxPartSize

instance (identity : Identity) : Decidable identity.Fits := inferInstanceAs (Decidable (_ ∧ _))

/-- The stem of an identity that fits. -/
def stemOctets (identity : Identity) : Bytes := sizedOctets identity.context ++ sizedOctets identity.label

variable {i j : Identity} {row row' : RowName} {key octets : Bytes}

theorem stem_of_fits (h : i.Fits) : i.stem = .ok i.stemOctets := by
  rw [stem, octets_of_fits h.1, octets_of_fits h.2]
  rfl

/-- An identity that does not fit has no stem. -/
theorem stem_of_not_fits (h : ¬i.Fits) : ∃ part size, i.stem = .error (.tooLong part size) := by
  unfold Fits at h
  by_cases hc : (Bytes.ofText i.context).length ≤ maxPartSize
  · have hl : ¬(Bytes.ofText i.label).length ≤ maxPartSize := fun hl => h ⟨hc, hl⟩
    refine ⟨.label, (Bytes.ofText i.label).length, ?_⟩
    rw [stem, octets_of_fits hc, Part.octets, if_neg hl]
    rfl
  · refine ⟨.context, (Bytes.ofText i.context).length, ?_⟩
    rw [stem, Part.octets, if_neg hc]
    rfl

/-- **Stems stand apart.** What starts with the stems of two identities tells that they are one. -/
theorem eq_of_append_stem {x y : Bytes} (hi : i.Fits) (hj : j.Fits) (h : i.stemOctets ++ x = j.stemOctets ++ y) :
    i = j ∧ x = y := by
  simp only [stemOctets, List.append_assoc] at h
  obtain ⟨hcontext, hrest⟩ := eq_of_append_sizedOctets hi.1 hj.1 h
  obtain ⟨hlabel, hxy⟩ := eq_of_append_sizedOctets hi.2 hj.2 hrest
  refine ⟨?_, hxy⟩
  cases i
  cases j
  simp_all

/-! ## Keys -/

theorem key_eq_ok_iff :
    i.key row = .ok key ↔ i.Fits ∧ ∃ octets, row.octets = .ok octets ∧ key = i.stemOctets ++ octets := by
  rw [Identity.key]
  constructor
  · intro h
    cases ho : row.octets with
    | error reason => rw [ho] at h; cases h
    | ok octets =>
      by_cases hi : i.Fits
      · rw [ho, stem_of_fits hi] at h
        exact ⟨hi, octets, rfl, (Except.ok.inj h).symm⟩
      · obtain ⟨part, size, hs⟩ := stem_of_not_fits hi
        rw [ho, hs] at h
        cases h
  · rintro ⟨hi, octets, ho, rfl⟩
    rw [ho, stem_of_fits hi]
    rfl

theorem key_of_fits (hi : i.Fits) (ho : row.octets = .ok octets) : i.key row = .ok (i.stemOctets ++ octets) :=
  key_eq_ok_iff.2 ⟨hi, octets, ho, rfl⟩

theorem key_counter (hi : i.Fits) : i.key .counter = .ok (i.stemOctets ++ [counterTag]) := key_of_fits hi rfl

theorem key_descriptor (hi : i.Fits) : i.key .descriptor = .ok (i.stemOctets ++ [descriptorTag]) := key_of_fits hi rfl

/-- A row that has octets has a key iff its identity fits; otherwise the identity is refused. -/
theorem key_of_stem_error {reason : Invalid} (hs : i.stem = .error reason) (ho : row.octets = .ok octets) :
    i.key row = .error reason := by
  rw [Identity.key, ho, hs]
  rfl

/-- **Different rows have different keys.** -/
theorem key_injective (h : i.key row = .ok key) (h' : j.key row' = .ok key) : i = j ∧ row = row' := by
  obtain ⟨hi, octets, ho, rfl⟩ := key_eq_ok_iff.1 h
  obtain ⟨hj, octets', ho', he⟩ := key_eq_ok_iff.1 h'
  obtain ⟨rfl, rfl⟩ := eq_of_append_stem hi hj he
  exact ⟨rfl, octets_injective ho ho'⟩

/-- What the keys of an identity's versions start with. -/
def versionStart (identity : Identity) : Bytes := identity.stemOctets ++ [versionTag]

theorem versionStem_of_fits (hi : i.Fits) : i.versionStem = .ok i.versionStart := by
  rw [versionStem, stem_of_fits hi]
  rfl

/-- The keys of versions. -/
theorem key_version_eq_ok_iff {n : Int} : i.key (.version n) = .ok key ↔
    i.Fits ∧ ∃ m : Nat, n = m ∧ m ≤ maxVersion ∧ key = i.versionStart ++ Bytes.bigEndian 8 m := by
  simp only [key_eq_ok_iff, octets_version_eq_ok_iff, versionStart, List.append_assoc, List.singleton_append]
  constructor
  · rintro ⟨hi, _, ⟨m, rfl, hm, rfl⟩, rfl⟩
    exact ⟨hi, m, rfl, hm, rfl⟩
  · rintro ⟨hi, m, rfl, hm, rfl⟩
    exact ⟨hi, _, ⟨m, rfl, hm, rfl⟩, rfl⟩

theorem key_version (hi : i.Fits) {n : Nat} (hn : n ≤ maxVersion) :
    i.key (.version n) = .ok (i.versionStart ++ Bytes.bigEndian 8 n) :=
  key_version_eq_ok_iff.2 ⟨hi, n, rfl, hn, rfl⟩

/-- A number that is too great has no key. -/
theorem key_version_of_gt {n : Int} (hn : maxVersion < n) : i.key (.version n) = .error (.versionOutOfRange n) := by
  rw [Identity.key, RowName.octets, if_neg (by omega)]
  rfl

/-- The rows that a scan of an identity's versions can meet are its versions. -/
theorem isPrefix_versionStart (hi : i.Fits) (hkey : j.key row = .ok key) :
    i.versionStart <+: key ↔ j = i ∧ ∃ n : Nat, row = .version n := by
  obtain ⟨hj, octets, ho, rfl⟩ := key_eq_ok_iff.1 hkey
  constructor
  · rintro ⟨rest, hrest⟩
    rw [versionStart, List.append_assoc] at hrest
    obtain ⟨rfl, rfl⟩ := eq_of_append_stem hi hj hrest
    refine ⟨rfl, ?_⟩
    cases row with
    | counter => exact absurd (List.cons.inj (Except.ok.inj ho)).1 (by decide)
    | descriptor => exact absurd (List.cons.inj (Except.ok.inj ho)).1 (by decide)
    | version n =>
      obtain ⟨m, rfl, -, -⟩ := octets_version_eq_ok_iff.1 ho
      exact ⟨m, rfl⟩
  · rintro ⟨rfl, n, rfl⟩
    obtain ⟨m, -, -, rfl⟩ := octets_version_eq_ok_iff.1 ho
    exact ⟨Bytes.bigEndian 8 m, by simp [versionStart]⟩

/-- The keys of versions are ordered as their numbers. -/
theorem version_key_lt_iff {n m : Nat} (hn : n ≤ maxVersion) (hm : m ≤ maxVersion) :
    i.versionStart ++ Bytes.bigEndian 8 n < i.versionStart ++ Bytes.bigEndian 8 m ↔ n < m := by
  rw [Bytes.append_lt_append_iff, Bytes.bigEndian_lt_iff (Nat.lt_of_le_of_lt hn maxVersion_lt)
    (Nat.lt_of_le_of_lt hm maxVersion_lt)]

/-- The number of a version is read from the last eight octets of its key. -/
theorem numberOfRow_version_key {n : Nat} (hn : n ≤ maxVersion) {key : Bytes}
    (hkey : key = i.versionStart ++ Bytes.bigEndian 8 n) : numberOfRow (key.drop (key.length - 8)) = .ok n := by
  have hlast : key.drop (key.length - 8) = Bytes.bigEndian 8 n := by
    rw [hkey, List.length_append, Bytes.length_bigEndian, Nat.add_sub_cancel, List.drop_left]
  rw [hlast, numberOfRow, if_pos (Bytes.length_bigEndian 8 n),
    Bytes.ofBigEndian_bigEndian (Nat.lt_of_le_of_lt hn maxVersion_lt)]

end Identity

/-! ## The layout of all keys -/

/-- The rows that have keys: of the versions, those whose numbers are in the range of eight octets. -/
def RowName.Fits : RowName → Prop
  | counter | descriptor => True
  | version n => 0 ≤ n ∧ n < 2 ^ 64

theorem RowName.Fits.exists_octets {row : RowName} (h : row.Fits) : ∃ octets, row.octets = .ok octets := by
  cases row with
  | counter => exact ⟨_, rfl⟩
  | descriptor => exact ⟨_, rfl⟩
  | version n =>
    obtain ⟨hmin, hmax⟩ := h
    have hle := le_maxVersion_iff.2 hmax
    exact ⟨_, octets_version_eq_ok_iff.2 ⟨n.toNat, by omega, by omega, rfl⟩⟩

section Layout

variable {i j : Identity}

/-- What starts with a stem and goes on behind another one tells that they are one. -/
theorem Identity.isPrefix_stem_iff (hi : i.Fits) (hj : j.Fits) (rest : Bytes) :
    i.stemOctets <+: j.stemOctets ++ rest ↔ i = j := by
  constructor
  · rintro ⟨x, h⟩
    exact (eq_of_append_stem hi hj h).1
  · rintro rfl
    exact List.prefix_append _ _

/-- **The layout is unambiguous and keeps the order.** The stem of an identity is a start of another stem, or of a key of
another identity, only where the two identities are one. All rows have keys, and different rows of whatever identities
have different ones. The last eight octets of a version's key tell its number, and the keys of versions are in the order
of their numbers. -/
theorem layout_unambiguous (hi : i.Fits) (hj : j.Fits) :
    (∃ stem stem', i.stem = .ok stem ∧ j.stem = .ok stem' ∧ (stem <+: stem' ↔ i = j) ∧ (stem' <+: stem ↔ i = j) ∧
      ∀ row key, j.key row = .ok key → (stem <+: key ↔ i = j)) ∧
    (∀ row row' : RowName, row.Fits → row'.Fits →
      ∃ key key', i.key row = .ok key ∧ j.key row' = .ok key' ∧ (key = key' ↔ i = j ∧ row = row')) ∧
    ∀ v w : Nat, v < 2 ^ 64 → w < 2 ^ 64 →
      ∃ key key', i.key (.version v) = .ok key ∧ i.key (.version w) = .ok key' ∧
        numberOfRow (key.drop (key.length - 8)) = .ok v ∧ (key < key' ↔ v < w) := by
  refine ⟨⟨_, _, Identity.stem_of_fits hi, Identity.stem_of_fits hj, ?_, ?_, fun row key hkey => ?_⟩,
    fun row row' hrow hrow' => ?_, fun v w hv hw => ?_⟩
  · simpa using Identity.isPrefix_stem_iff hi hj []
  · simpa [eq_comm] using Identity.isPrefix_stem_iff hj hi []
  · obtain ⟨-, octets, -, rfl⟩ := Identity.key_eq_ok_iff.1 hkey
    exact Identity.isPrefix_stem_iff hi hj octets
  · obtain ⟨octets, ho⟩ := hrow.exists_octets
    obtain ⟨octets', ho'⟩ := hrow'.exists_octets
    have hkey := Identity.key_of_fits hi ho
    have hkey' := Identity.key_of_fits hj ho'
    refine ⟨_, _, hkey, hkey', fun heq => Identity.key_injective hkey (heq ▸ hkey'), ?_⟩
    rintro ⟨rfl, rfl⟩
    exact Except.ok.inj (hkey.symm.trans hkey')
  · have hmax : ∀ n : Nat, n < 2 ^ 64 → n ≤ maxVersion := fun n hn => by
      have := le_maxVersion_iff (n := n)
      omega
    exact ⟨_, _, Identity.key_version hi (hmax v hv), Identity.key_version hi (hmax w hw),
      Identity.numberOfRow_version_key (hmax v hv) rfl, Identity.version_key_lt_iff (hmax v hv) (hmax w hw)⟩

end Layout

namespace Sample

/-- An identity of two short parts. -/
def plain : Identity := ⟨"a", "b"⟩

/-- An identity without a label, whose context is the other one's stem behind its first size. -/
def mimic : Identity := ⟨"a\x00\x01b", ""⟩

end Sample

/-- A context with the other identity's sizes in it, and two versions whose lowest octets are in the other order. -/
theorem layout_unambiguous_mimic :
    (Sample.plain.Fits ∧ Sample.mimic.Fits ∧ Sample.plain ≠ Sample.mimic) ∧
      (∃ stem stem', Sample.plain.stem = .ok stem ∧ Sample.mimic.stem = .ok stem' ∧ ¬stem <+: stem' ∧ ¬stem' <+: stem) ∧
        ∃ key key', Sample.plain.key (.version 255) = .ok key ∧ Sample.plain.key (.version 256) = .ok key' ∧
          key < key' := by
  have hne : Sample.plain ≠ Sample.mimic := by decide
  obtain ⟨⟨stem, stem', hs, hs', hstart, hstart', -⟩, -, hversions⟩ :=
    layout_unambiguous (i := Sample.plain) (j := Sample.mimic) (by decide) (by decide)
  obtain ⟨key, key', hkey, hkey', -, hlt⟩ := hversions 255 256 (by decide) (by decide)
  refine ⟨⟨by decide, by decide, hne⟩, ⟨stem, stem', hs, hs', ?_, ?_⟩, key, key', hkey, hkey', hlt.2 (by decide)⟩
  · exact fun h => hne (hstart.1 h)
  · exact fun h => hne (hstart'.1 h)

end Schemata.Catalog

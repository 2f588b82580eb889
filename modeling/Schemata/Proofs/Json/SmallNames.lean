import Schemata.Json.Keys
import Schemata.Proofs.Json.Fields
import Schemata.Proofs.Json.Tree
import Schemata.Proofs.Text.Lower

/-!
# Names in small letters

`LowersTo` says what a tree with small names is, container by container: which names an object has, in which order,
and from which of the names that fall together each takes its value. `Value.lowerKeys` is the one tree that does so
(`lowersTo_iff`), by induction on the tree where each object's fields are compared name by name. Its objects have
distinct small names at every depth (`hasSmallNames_lowerKeys`), and a tree of such objects is left alone
(`lowerKeys_eq_self`), hence so is what `Value.lowerKeys` makes.
-/

namespace Schemata.Json

variable {v w : Value} {elements : List Value} {fields : Fields} {name : String}

/-! ## The tree with small names -/

/-- The value of the last field whose name becomes this one in small letters. -/
def lastLowered? (name : String) (fields : Fields) : Option Value :=
  (fields.reverse.find? fun p => Text.lower p.1 = name).map (·.2)

/-- The second value is the first one with its names in small letters. -/
inductive LowersTo : Value → Value → Prop where
  | scalar {v : Value} (h : v.IsScalar) : LowersTo v v
  /-- The elements keep their count and their order. -/
  | array {elements lowered : List Value} (hlength : lowered.length = elements.length)
      (h : ∀ (i : Nat) v w, elements[i]? = some v → lowered[i]? = some w → LowersTo v w) :
      LowersTo (.array elements) (.array lowered)
  /-- The names are the small ones, each once, in the order of the first names that become them; the value of each is
  that of the last name that becomes it. -/
  | object {fields lowered : Fields}
      (hnames : lowered.map (·.1) = (fields.map fun p => Text.lower p.1).eraseDups)
      (h : ∀ name v w, lastLowered? name fields = some v → field? name lowered = some w → LowersTo v w) :
      LowersTo (.object fields) (.object lowered)

theorem lowerKeys_of_isScalar (h : v.IsScalar) : v.lowerKeys = v := by
  cases v with
  | array => cases h
  | object => cases h
  | _ => rfl

theorem lowerKeys_array (elements : List Value) :
    (Value.array elements).lowerKeys = .array (elements.map Value.lowerKeys) := by
  rw [Value.lowerKeys, lowerKeysElements_eq_map]

/-- The fields of an object with small names. -/
def lowerFields (fields : Fields) : Fields := fieldsOf (fields.map fun p => (Text.lower p.1, p.2.lowerKeys))

theorem lowerKeys_object (fields : Fields) : (Value.object fields).lowerKeys = .object (lowerFields fields) := by
  rw [Value.lowerKeys, lowerKeysFields_eq_map]
  rfl

theorem map_fst_lowerFields (fields : Fields) :
    (lowerFields fields).map (·.1) = (fields.map fun p => Text.lower p.1).eraseDups := by
  rw [lowerFields, map_fst_fieldsOf, List.map_map]
  rfl

theorem field?_lowerFields (name : String) (fields : Fields) :
    field? name (lowerFields fields) = (lastLowered? name fields).map Value.lowerKeys := by
  rw [lowerFields, field?_fieldsOf, lastLowered?, field?, ← List.map_reverse, List.find?_map, Option.map_map,
    Option.map_map]
  rfl

theorem exists_of_lastLowered? (h : lastLowered? name fields = some v) : ∃ p ∈ fields, p.2 = v := by
  rw [lastLowered?, Option.map_eq_some_iff] at h
  obtain ⟨p, hp, hv⟩ := h
  exact ⟨p, List.mem_reverse.1 (List.mem_of_find?_eq_some hp), hv⟩

theorem exists_of_mem_lowerFields {p : String × Value} (h : p ∈ lowerFields fields) :
    ∃ q ∈ fields, p = (Text.lower q.1, q.2.lowerKeys) := by
  obtain ⟨q, hq, heq⟩ := List.mem_map.1 (mem_of_mem_fieldsOf h)
  exact ⟨q, hq, heq.symm⟩

theorem lowersTo_lowerKeys (v : Value) : LowersTo v v.lowerKeys := by
  induction v using Value.induction with
  | scalar v h =>
    rw [lowerKeys_of_isScalar h]
    exact .scalar h
  | array elements ih =>
    rw [lowerKeys_array]
    refine .array (List.length_map _) ?_
    intro i v w hv hw
    rw [List.getElem?_map, hv] at hw
    cases hw
    exact ih v (List.mem_of_getElem? hv)
  | object fields ih =>
    rw [lowerKeys_object]
    refine .object (map_fst_lowerFields fields) ?_
    intro name v w hv hw
    rw [field?_lowerFields, hv] at hw
    cases hw
    obtain ⟨p, hp, rfl⟩ := exists_of_lastLowered? hv
    exact ih p hp

theorem eq_lowerKeys_of_lowersTo (h : LowersTo v w) : w = v.lowerKeys := by
  induction h with
  | scalar h => exact (lowerKeys_of_isScalar h).symm
  | @array elements lowered hlength h ih =>
    rw [lowerKeys_array]
    rw [eq_map_of_getElem? hlength ih]
  | @object fields lowered hnames h ih =>
    have hsame : lowered.map (·.1) = (lowerFields fields).map (·.1) := by rw [hnames, map_fst_lowerFields]
    have hnodup : (lowered.map (·.1)).Nodup := by
      rw [hsame]
      exact nodup_fieldsOf _
    -- The two have values under the same names.
    have hnone : ∀ name, field? name lowered = none ↔ lastLowered? name fields = none := by
      intro name
      rw [field?_eq_none_iff, hsame, ← field?_eq_none_iff, field?_lowerFields, Option.map_eq_none_iff]
    rw [lowerKeys_object]
    congr 1
    apply ext_field? hsame hnodup
    intro name
    rw [field?_lowerFields]
    cases hv : lastLowered? name fields with
    | none => exact (hnone name).2 hv
    | some v =>
      cases hw : field? name lowered with
      | none =>
        rw [(hnone name).1 hw] at hv
        cases hv
      | some w => rw [ih name v w hv hw, Option.map_some]

/-- **There is one tree with small names.** -/
theorem lowersTo_iff : LowersTo v w ↔ w = v.lowerKeys := by
  constructor
  · exact eq_lowerKeys_of_lowersTo
  · rintro rfl
    exact lowersTo_lowerKeys v

/-! ## A normal form -/

/-- Every object in the tree has distinct names, all in small letters. -/
def Value.HasSmallNames (v : Value) : Prop :=
  ∀ fields, (Value.object fields).Within v → (fields.map (·.1)).Nodup ∧ ∀ p ∈ fields, Text.lower p.1 = p.1

theorem hasSmallNames_lowerKeys (v : Value) : v.lowerKeys.HasSmallNames := by
  induction v using Value.induction with
  | scalar v h =>
    intro fields hwithin
    rw [lowerKeys_of_isScalar h] at hwithin
    exact absurd hwithin (not_within_of_isScalar h)
  | array elements ih =>
    intro fields hwithin
    rw [lowerKeys_array] at hwithin
    obtain ⟨w, hw, hwithin⟩ := object_within_array hwithin
    obtain ⟨v, hv, rfl⟩ := List.mem_map.1 hw
    exact ih v hv fields hwithin
  | object others ih =>
    intro fields hwithin
    rw [lowerKeys_object] at hwithin
    obtain rfl | ⟨p, hp, hwithin⟩ := object_within_object hwithin
    · refine ⟨nodup_fieldsOf _, ?_⟩
      intro p hp
      obtain ⟨q, -, rfl⟩ := exists_of_mem_lowerFields hp
      exact Text.lower_lower q.1
    · obtain ⟨q, hq, rfl⟩ := exists_of_mem_lowerFields hp
      exact ih q hq fields hwithin

/-- **A tree of distinct small names is left alone.** -/
theorem lowerKeys_eq_self (h : v.HasSmallNames) : v.lowerKeys = v := by
  induction v using Value.induction with
  | scalar v hv => exact lowerKeys_of_isScalar hv
  | array elements ih =>
    have helements : elements.map Value.lowerKeys = elements.map id := by
      apply List.map_congr_left
      intro v hv
      apply ih v hv
      intro fields hwithin
      exact h fields (.element hv hwithin)
    rw [lowerKeys_array, helements, List.map_id]
  | object fields ih =>
    obtain ⟨hnodup, hsmall⟩ := h fields .self
    have hfields : (fields.map fun p => (Text.lower p.1, p.2.lowerKeys)) = fields.map id := by
      apply List.map_congr_left
      intro p hp
      have hvalue : p.2.lowerKeys = p.2 := by
        apply ih p hp
        intro inner hwithin
        exact h inner (.field hp hwithin)
      rw [hsmall p hp, hvalue]
      rfl
    rw [lowerKeys_object, lowerFields, hfields, List.map_id, fieldsOf_eq_self hnodup]

/-- **Small names are a normal form**: the tree with small names is the one that `LowersTo` tells of, its objects have
distinct small names at every depth, and to write its names in small letters again changes nothing. -/
theorem lowerKeys_normal_form (v : Value) :
    (∀ w, LowersTo v w ↔ w = v.lowerKeys) ∧ v.lowerKeys.HasSmallNames ∧ v.lowerKeys.lowerKeys = v.lowerKeys := by
  refine ⟨fun w => lowersTo_iff, hasSmallNames_lowerKeys v, ?_⟩
  exact lowerKeys_eq_self (hasSmallNames_lowerKeys v)

example : (Value.object [("A", .int 1), ("b", .null), ("a", .int 2)]).lowerKeys =
    .object [("a", .int 2), ("b", .null)] := by rfl

end Schemata.Json

import Schemata.Json.Keys
import Schemata.Proofs.Json.Tree

/-!
# Fields taken out

`Drops` says what a tree is without named fields, container by container: the fields that are not named, in their
order, each with what becomes of its value. `Value.without` makes the one tree that is so (`drops_iff`), and no object
in it has a named field at any depth (`not_mem_of_within_without`). To take out some names and then others is to take
out all of them (`without_without`), of which only the set counts (`without_congr`).
-/

namespace Schemata.Json

variable {v w : Value} {elements : List Value} {fields : Fields} {A B names : List String}

/-! ## The tree without the named fields -/

/-- The fields that are not named. -/
def keptFields (names : List String) (fields : Fields) : Fields := fields.filter fun p => p.1 ∉ names

/-- The second value is the first one without the named fields. -/
inductive Drops (names : List String) : Value → Value → Prop where
  | scalar {v : Value} (h : v.IsScalar) : Drops names v v
  /-- The elements keep their count and their order. -/
  | array {elements left : List Value} (hlength : left.length = elements.length)
      (h : ∀ (i : Nat) v w, elements[i]? = some v → left[i]? = some w → Drops names v w) :
      Drops names (.array elements) (.array left)
  /-- The fields that are not named keep their names and their order. -/
  | object {fields left : Fields} (hnames : left.map (·.1) = (keptFields names fields).map (·.1))
      (h : ∀ (i : Nat) p q, (keptFields names fields)[i]? = some p → left[i]? = some q → Drops names p.2 q.2) :
      Drops names (.object fields) (.object left)

theorem without_of_isScalar (h : v.IsScalar) : v.without names = v := by
  cases v with
  | array => cases h
  | object => cases h
  | _ => rfl

theorem without_array (names : List String) (elements : List Value) :
    (Value.array elements).without names = .array (elements.map (Value.without names)) := by
  rw [Value.without, elementsWithout_eq_map]

theorem without_object (names : List String) (fields : Fields) :
    (Value.object fields).without names = .object (fieldsWithout names fields) := by
  rw [Value.without]

theorem fieldsWithout_eq_map (names : List String) (fields : Fields) :
    fieldsWithout names fields = (keptFields names fields).map fun p => (p.1, p.2.without names) := by
  induction fields with
  | nil => rfl
  | cons p fields ih =>
    obtain ⟨name, v⟩ := p
    rw [fieldsWithout, ih]
    by_cases h : name ∈ names
    · rw [if_pos h, keptFields, keptFields, List.filter_cons_of_neg (by simp [h])]
    · rw [if_neg h, keptFields, keptFields, List.filter_cons_of_pos (by simp [h]), List.map_cons]

theorem mem_keptFields {p : String × Value} : p ∈ keptFields names fields ↔ p ∈ fields ∧ p.1 ∉ names := by
  simp [keptFields]

theorem drops_without (names : List String) (v : Value) : Drops names v (v.without names) := by
  induction v using Value.induction with
  | scalar v h =>
    rw [without_of_isScalar h]
    exact .scalar h
  | array elements ih =>
    rw [without_array]
    refine .array (List.length_map _) ?_
    intro i v w hv hw
    rw [List.getElem?_map, hv] at hw
    cases hw
    exact ih v (List.mem_of_getElem? hv)
  | object fields ih =>
    rw [without_object, fieldsWithout_eq_map]
    refine .object ?_ ?_
    · rw [List.map_map]
      rfl
    · intro i p q hp hq
      rw [List.getElem?_map, hp] at hq
      cases hq
      exact ih p (mem_keptFields.1 (List.mem_of_getElem? hp)).1

theorem eq_without_of_drops (h : Drops names v w) : w = v.without names := by
  induction h with
  | scalar h => exact (without_of_isScalar h).symm
  | @array elements left hlength h ih =>
    rw [without_array]
    rw [eq_map_of_getElem? hlength ih]
  | @object fields left hnames h ih =>
    have hlength : left.length = (keptFields names fields).length := by
      simpa using congrArg List.length hnames
    rw [without_object, fieldsWithout_eq_map]
    congr 1
    apply eq_map_of_getElem? hlength
    intro i p q hp hq
    have hname : q.1 = p.1 := by
      have hat := congrArg (·[i]?) hnames
      simpa only [List.getElem?_map, hp, hq, Option.map_some, Option.some.injEq] using hat
    exact Prod.ext hname (ih i p q hp hq)

/-- **There is one tree without the named fields.** -/
theorem drops_iff : Drops names v w ↔ w = v.without names := by
  constructor
  · exact eq_without_of_drops
  · rintro rfl
    exact drops_without names v

/-- **No object in the tree has a named field.** -/
theorem not_mem_of_within_without (hwithin : (Value.object fields).Within (v.without names)) :
    ∀ p ∈ fields, p.1 ∉ names := by
  induction v using Value.induction with
  | scalar v h =>
    rw [without_of_isScalar h] at hwithin
    exact absurd hwithin (not_within_of_isScalar h)
  | array elements ih =>
    rw [without_array] at hwithin
    obtain ⟨w, hw, hwithin⟩ := object_within_array hwithin
    obtain ⟨v, hv, rfl⟩ := List.mem_map.1 hw
    exact ih v hv hwithin
  | object others ih =>
    rw [without_object, fieldsWithout_eq_map] at hwithin
    obtain rfl | ⟨p, hp, hwithin⟩ := object_within_object hwithin
    · intro p hp
      obtain ⟨q, hq, rfl⟩ := List.mem_map.1 hp
      exact (mem_keptFields.1 hq).2
    · obtain ⟨q, hq, rfl⟩ := List.mem_map.1 hp
      exact ih q (mem_keptFields.1 hq).1 hwithin

/-! ## One drop after another -/

theorem fieldsWithout_fieldsWithout (h : ∀ p ∈ fields, (p.2.without A).without B = p.2.without (A ++ B)) :
    fieldsWithout B (fieldsWithout A fields) = fieldsWithout (A ++ B) fields := by
  induction fields with
  | nil => rfl
  | cons p fields ih =>
    obtain ⟨name, v⟩ := p
    obtain ⟨hv, hfields⟩ := List.forall_mem_cons.1 h
    by_cases hA : name ∈ A
    · simp [fieldsWithout, hA, ih hfields]
    · by_cases hB : name ∈ B
      · simp [fieldsWithout, hA, hB, ih hfields]
      · simp [fieldsWithout, hA, hB, ih hfields, hv]

/-- **To take out some names and then others is to take out all of them.** -/
theorem without_without (A B : List String) (v : Value) : (v.without A).without B = v.without (A ++ B) := by
  induction v using Value.induction with
  | scalar v h => rw [without_of_isScalar h, without_of_isScalar h, without_of_isScalar h]
  | array elements ih =>
    rw [without_array, without_array, without_array, List.map_map]
    congr 1
    exact List.map_congr_left ih
  | object fields ih =>
    rw [without_object, without_object, without_object, fieldsWithout_fieldsWithout ih]

/-- Only the set of the names counts. -/
theorem without_congr (h : ∀ name, name ∈ A ↔ name ∈ B) (v : Value) : v.without A = v.without B := by
  induction v using Value.induction with
  | scalar v hv => rw [without_of_isScalar hv, without_of_isScalar hv]
  | array elements ih =>
    rw [without_array, without_array]
    congr 1
    exact List.map_congr_left ih
  | object fields ih =>
    have hkept : keptFields A fields = keptFields B fields := by
      apply List.filter_congr
      intro p _
      simp only [h p.1]
    rw [without_object, without_object, fieldsWithout_eq_map, fieldsWithout_eq_map, hkept]
    congr 1
    apply List.map_congr_left
    intro p hp
    rw [ih p (mem_keptFields.1 hp).1]

/-- **Named fields are taken out, and nothing else**: the tree is the one that `Drops` tells of, with no named field in
any of its objects; drops compose in any order, and a drop repeated changes nothing. -/
theorem without_exact (A B : List String) (v : Value) :
    (∀ w, Drops A v w ↔ w = v.without A) ∧
    (∀ fields, (Value.object fields).Within (v.without A) → ∀ p ∈ fields, p.1 ∉ A) ∧
    (v.without A).without B = v.without (A ++ B) ∧
    (v.without B).without A = v.without (A ++ B) ∧
    (v.without A).without A = v.without A := by
  refine ⟨fun w => drops_iff, fun fields => not_mem_of_within_without, without_without A B v, ?_, ?_⟩
  · rw [without_without]
    apply without_congr
    intro name
    rw [List.mem_append, List.mem_append, Or.comm]
  · rw [without_without]
    apply without_congr
    intro name
    rw [List.mem_append, or_self]

end Schemata.Json

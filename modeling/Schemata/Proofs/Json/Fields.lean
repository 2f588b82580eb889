import Mathlib.Data.List.Induction
import Schemata.Json.Value

/-!
# Fields

The fields of an object are known by their names and the value of each (`ext_field?`). Setting a field gives its name
that value and no other one another (`field?_setField`); joining pairs of one name keeps the place of the first and the
value of the last (`map_fst_fieldsOf`, `field?_fieldsOf`), and leaves distinct names alone (`fieldsOf_eq_self`).
-/

namespace Schemata.Json

variable {fields others : Fields} {name : String} {v : Value}

/-! ## The value of a name -/

@[simp] theorem field?_nil (name : String) : field? name [] = none := rfl

theorem field?_cons_self (name : String) (v : Value) (fields : Fields) :
    field? name ((name, v) :: fields) = some v := by
  simp [field?]

theorem field?_cons_of_ne {name other : String} (h : other ≠ name) (v : Value) (fields : Fields) :
    field? name ((other, v) :: fields) = field? name fields := by
  simp [field?, h]

/-- A name has no value exactly when it is none of the names. -/
theorem field?_eq_none_iff : field? name fields = none ↔ name ∉ fields.map (·.1) := by
  induction fields with
  | nil => simp
  | cons p fields ih =>
    obtain ⟨other, v⟩ := p
    by_cases h : other = name
    · subst h
      simp [field?_cons_self]
    · rw [field?_cons_of_ne h, ih, List.map_cons, List.mem_cons, not_or]
      exact ⟨fun hmem => ⟨Ne.symm h, hmem⟩, And.right⟩

/-- Distinct names in the same order and a value for each make out the fields. -/
theorem ext_field? (hnames : fields.map (·.1) = others.map (·.1)) (hnodup : (fields.map (·.1)).Nodup)
    (h : ∀ name, field? name fields = field? name others) : fields = others := by
  induction fields generalizing others with
  | nil =>
    cases others with
    | nil => rfl
    | cons q others => cases hnames
  | cons p fields ih =>
    cases others with
    | nil => cases hnames
    | cons q others =>
      obtain ⟨name, v⟩ := p
      obtain ⟨name', w⟩ := q
      obtain ⟨hname, hrest⟩ := List.cons.inj hnames
      obtain ⟨hnot, hnodup⟩ := List.nodup_cons.1 hnodup
      dsimp only at hname hnot
      subst hname
      have hv := h name
      rw [field?_cons_self, field?_cons_self] at hv
      have hfields : fields = others := by
        apply ih hrest hnodup
        intro other
        by_cases hother : name = other
        · subst hother
          rw [field?_eq_none_iff.2 hnot, field?_eq_none_iff.2 (hrest ▸ hnot)]
        · have := h other
          rwa [field?_cons_of_ne hother, field?_cons_of_ne hother] at this
      rw [Option.some.inj hv, hfields]

/-! ## Setting a field -/

theorem field?_setField (name other : String) (v : Value) (fields : Fields) :
    field? other (setField name v fields) = if name = other then some v else field? other fields := by
  induction fields with
  | nil =>
    rw [setField]
    by_cases h : name = other
    · rw [if_pos h, h, field?_cons_self]
    · rw [if_neg h, field?_cons_of_ne h]
  | cons p fields ih =>
    obtain ⟨first, w⟩ := p
    rw [setField]
    by_cases hfirst : first = name
    · rw [if_pos hfirst]
      by_cases h : name = other
      · rw [if_pos h, hfirst, h, field?_cons_self]
      · have hne : first ≠ other := hfirst ▸ h
        rw [if_neg h, field?_cons_of_ne hne, field?_cons_of_ne hne]
    · rw [if_neg hfirst]
      by_cases h : first = other
      · have hne : name ≠ other := fun e => hfirst (h.trans e.symm)
        rw [if_neg hne, h, field?_cons_self, field?_cons_self]
      · rw [field?_cons_of_ne h, field?_cons_of_ne h, ih]

/-- A new name goes to the end. -/
theorem setField_of_not_mem (h : name ∉ fields.map (·.1)) (v : Value) :
    setField name v fields = fields ++ [(name, v)] := by
  induction fields with
  | nil => rfl
  | cons p fields ih =>
    rw [List.map_cons, List.mem_cons, not_or] at h
    rw [setField, if_neg (Ne.symm h.1), ih h.2, List.cons_append]

/-- Of distinct names none comes before itself. -/
theorem not_mem_of_nodup_append {before after : Fields}
    (h : ((before ++ (name, v) :: after).map (·.1)).Nodup) : name ∉ before.map (·.1) := by
  rw [List.map_append, List.nodup_append] at h
  intro hmem
  exact h.2.2 name hmem name (by simp) rfl

theorem mem_setField {p : String × Value} (h : p ∈ setField name v fields) : p = (name, v) ∨ p ∈ fields := by
  induction fields with
  | nil =>
    rw [setField, List.mem_singleton] at h
    exact .inl h
  | cons q fields ih =>
    rw [setField] at h
    split at h
    · rename_i hname
      rcases List.mem_cons.1 h with h | h
      · rw [hname] at h
        exact .inl h
      · exact .inr (List.mem_cons_of_mem _ h)
    · rcases List.mem_cons.1 h with h | h
      · exact .inr (h ▸ List.mem_cons_self)
      · exact (ih h).imp_right (List.mem_cons_of_mem _)

/-! ## Joining pairs of one name -/

theorem fieldsOf_concat (pairs : Fields) (p : String × Value) :
    fieldsOf (pairs ++ [p]) = setField p.1 p.2 (fieldsOf pairs) := by
  rw [fieldsOf, List.foldl_append]
  rfl

/-- The names stay in the order in which each comes first. -/
theorem map_fst_fieldsOf (pairs : Fields) : (fieldsOf pairs).map (·.1) = (pairs.map (·.1)).eraseDups := by
  induction pairs using List.reverseRecOn with
  | nil => rfl
  | append_singleton pairs p ih =>
    rw [fieldsOf_concat, map_fst_setField, ih, List.map_append, List.eraseDups_append]
    by_cases h : p.1 ∈ pairs.map (·.1)
    · simp [List.removeAll, h]
    · simp [List.removeAll, h, List.eraseDups_cons]

theorem nodup_fieldsOf (pairs : Fields) : ((fieldsOf pairs).map (·.1)).Nodup := by
  induction pairs using List.reverseRecOn with
  | nil => exact List.nodup_nil
  | append_singleton pairs p ih =>
    rw [fieldsOf_concat]
    exact nodup_setField p.1 p.2 ih

/-- A name has the value that comes last with it. -/
theorem field?_fieldsOf (name : String) (pairs : Fields) :
    field? name (fieldsOf pairs) = field? name pairs.reverse := by
  induction pairs using List.reverseRecOn with
  | nil => rfl
  | append_singleton pairs p ih =>
    obtain ⟨last, v⟩ := p
    rw [fieldsOf_concat, field?_setField, ih, List.reverse_append, List.reverse_singleton, List.singleton_append]
    by_cases h : last = name
    · rw [if_pos h, h, field?_cons_self]
    · rw [if_neg h, field?_cons_of_ne h]

theorem mem_of_mem_fieldsOf {pairs : Fields} {p : String × Value} (h : p ∈ fieldsOf pairs) : p ∈ pairs := by
  induction pairs using List.reverseRecOn with
  | nil => cases h
  | append_singleton pairs q ih =>
    rw [fieldsOf_concat] at h
    rw [List.mem_append, List.mem_singleton]
    rcases mem_setField h with rfl | h
    · exact .inr rfl
    · exact .inl (ih h)

/-- Distinct names are left alone. -/
theorem fieldsOf_eq_self (h : (fields.map (·.1)).Nodup) : fieldsOf fields = fields := by
  induction fields using List.reverseRecOn with
  | nil => rfl
  | append_singleton fields p ih =>
    have hnew : p.1 ∉ fields.map (·.1) := not_mem_of_nodup_append h
    rw [List.map_append, List.nodup_append] at h
    rw [fieldsOf_concat, ih h.1, setField_of_not_mem hnew]

end Schemata.Json

import Schemata.Json.Value

/-!
# Values as trees

A value is a scalar, an array or an object, and what holds of a container when it holds of what is in it holds of every
value (`Value.induction`). `Value.Within` says that a value stands somewhere in another one, at any depth.
-/

namespace Schemata.Json

/-! ## Containers and scalars -/

/-- The value is no container. -/
def Value.IsScalar : Value → Prop
  | .array _ => False
  | .object _ => False
  | _ => True

/-- From the values inside a container to the container. -/
theorem Value.induction {P : Value → Prop} (scalar : ∀ v, v.IsScalar → P v)
    (array : ∀ elements, (∀ v ∈ elements, P v) → P (.array elements))
    (object : ∀ fields, (∀ p ∈ fields, P p.2) → P (.object fields)) (v : Value) : P v :=
  match v with
  | .null => scalar _ trivial
  | .bool _ => scalar _ trivial
  | .int _ => scalar _ trivial
  | .double _ => scalar _ trivial
  | .string _ => scalar _ trivial
  | .array elements => array elements fun v _ => Value.induction scalar array object v
  | .object fields => object fields fun p _ => Value.induction scalar array object p.2
termination_by v
decreasing_by
  · have := List.sizeOf_lt_of_mem ‹v ∈ elements›
    simp only [Value.array.sizeOf_spec]
    omega
  · obtain ⟨name, w⟩ := p
    have := List.sizeOf_lt_of_mem ‹(name, w) ∈ fields›
    simp only [Value.object.sizeOf_spec, Prod.mk.sizeOf_spec] at *
    omega

/-- The first value stands somewhere in the second one, or is it. -/
inductive Value.Within (u : Value) : Value → Prop where
  | self : Within u u
  | element {v : Value} {elements : List Value} (hv : v ∈ elements) (h : Within u v) : Within u (.array elements)
  | field {p : String × Value} {fields : Fields} (hp : p ∈ fields) (h : Within u p.2) : Within u (.object fields)

variable {fields others : Fields} {elements : List Value} {v : Value}

theorem not_within_of_isScalar (hv : v.IsScalar) : ¬ (Value.object fields).Within v := by
  intro h
  cases h <;> exact hv

theorem object_within_array (h : (Value.object fields).Within (.array elements)) :
    ∃ v ∈ elements, (Value.object fields).Within v := by
  cases h with
  | element hv h => exact ⟨_, hv, h⟩

theorem object_within_object (h : (Value.object fields).Within (.object others)) :
    fields = others ∨ ∃ p ∈ others, (Value.object fields).Within p.2 := by
  cases h with
  | self => exact .inl rfl
  | field hp h => exact .inr ⟨_, hp, h⟩

/-- A list that has at every place what becomes of the other list's element there. -/
theorem eq_map_of_getElem? {α β : Type} {f : α → β} {xs : List α} {ys : List β} (hlength : ys.length = xs.length)
    (h : ∀ (i : Nat) x y, xs[i]? = some x → ys[i]? = some y → y = f x) : ys = xs.map f := by
  apply List.ext_getElem
  · rw [hlength, List.length_map]
  · intro i hi hi'
    rw [List.length_map] at hi'
    rw [List.getElem_map]
    exact h i _ _ (List.getElem?_eq_getElem hi') (List.getElem?_eq_getElem hi)

end Schemata.Json

import Schemata.Json.Value

/-!
# Numbers that JSON has a form for

`Value.finite` puts null for every number that is not finite, at every depth; names and order stay.
-/

namespace Schemata.Json

mutual

/-- The tree with null for every number that is not finite. -/
def Value.finite : Value → Value
  | .double .nan => .null
  | .double (.infinite _) => .null
  | .array elements => .array (finiteElements elements)
  | .object fields => .object (finiteFields fields)
  | v => v

/-- The elements with null for every number that is not finite. -/
def finiteElements : List Value → List Value
  | [] => []
  | v :: rest => v.finite :: finiteElements rest

/-- The fields with null for every number that is not finite. -/
def finiteFields : List (String × Value) → List (String × Value)
  | [] => []
  | (name, v) :: rest => (name, v.finite) :: finiteFields rest

end

theorem finiteElements_eq_map (elements : List Value) : finiteElements elements = elements.map Value.finite := by
  induction elements with
  | nil => rfl
  | cons v rest ih => rw [finiteElements, ih, List.map_cons]

end Schemata.Json

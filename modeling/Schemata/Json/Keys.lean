import Schemata.Json.Value
import Schemata.Text.Lower

/-!
# Rewriting the names of a tree

`Value.lowerKeys` writes every name at every depth in small letters; of names that fall together the last value wins
at the place of the first. `Value.without` takes named fields out of every object at every depth.
-/

namespace Schemata.Json

mutual

/-- The tree with every name in small letters. -/
def Value.lowerKeys : Value → Value
  | .array elements => .array (lowerKeysElements elements)
  | .object fields => .object (fieldsOf (lowerKeysFields fields))
  | v => v

/-- The elements with every name in small letters. -/
def lowerKeysElements : List Value → List Value
  | [] => []
  | v :: rest => v.lowerKeys :: lowerKeysElements rest

/-- The fields with every name in small letters, before equal names are joined. -/
def lowerKeysFields : List (String × Value) → List (String × Value)
  | [] => []
  | (name, v) :: rest => (Text.lower name, v.lowerKeys) :: lowerKeysFields rest

end

mutual

/-- The tree without the named fields. -/
def Value.without (names : List String) : Value → Value
  | .array elements => .array (elementsWithout names elements)
  | .object fields => .object (fieldsWithout names fields)
  | v => v

/-- The elements without the named fields. -/
def elementsWithout (names : List String) : List Value → List Value
  | [] => []
  | v :: rest => v.without names :: elementsWithout names rest

/-- The fields that are not named, without the named fields inside them. -/
def fieldsWithout (names : List String) : List (String × Value) → List (String × Value)
  | [] => []
  | (name, v) :: rest =>
    if name ∈ names then fieldsWithout names rest
    else (name, v.without names) :: fieldsWithout names rest

end

theorem lowerKeysElements_eq_map (elements : List Value) :
    lowerKeysElements elements = elements.map Value.lowerKeys := by
  induction elements with
  | nil => rfl
  | cons v rest ih => rw [lowerKeysElements, ih, List.map_cons]

theorem lowerKeysFields_eq_map (fields : List (String × Value)) :
    lowerKeysFields fields = fields.map fun p => (Text.lower p.1, p.2.lowerKeys) := by
  induction fields with
  | nil => rfl
  | cons p rest ih => rw [lowerKeysFields, ih, List.map_cons]

theorem elementsWithout_eq_map (names : List String) (elements : List Value) :
    elementsWithout names elements = elements.map (Value.without names) := by
  induction elements with
  | nil => rfl
  | cons v rest ih => rw [elementsWithout, ih, List.map_cons]

end Schemata.Json

import Schemata.Json.Writer
import Schemata.Query.Token

/-!
# Comparing values

`Value.same` compares by value: numbers as numbers whatever their form, objects without regard to the order of their
fields, and values of different kinds never the same. `Value.less` orders two numbers or two texts and nothing else.
Sorting has an order and a likeness of its own, in which truths count as numbers: `Value.sortsBefore` also orders
arrays, and fails on values without an order, and `Value.alike` says which values it passes over.
-/

namespace Schemata.Json

open Double (Place)

/-- The place of a number among numbers. -/
def Value.place? : Value → Option Place
  | .int n => some (.at n 1)
  | .double d => d.place?
  | _ => none

/-- Whether the value is a number. -/
def Value.isNumber : Value → Bool
  | .int _ => true
  | .double _ => true
  | _ => false

/-- Whether the value is not-a-number. -/
def Value.isNan : Value → Bool
  | .double .nan => true
  | _ => false

/-- A truth as the number zero or one, and any other value as it is. -/
def Value.ranked : Value → Value
  | .bool b => .int (if b then 1 else 0)
  | v => v

/-- How two numbers lie, if both values are numbers. -/
def Value.compareNumbers? (v w : Value) : Option Ordering := do
  let p ← v.place?
  let q ← w.place?
  some (p.compare q)

mutual

/-- Whether two values are the same. -/
def Value.same : Value → Value → Bool
  | .null, .null => true
  | .bool b, .bool c => b == c
  | .string s, .string t => s == t
  | .array xs, .array ys => sameElements xs ys
  | .object fs, .object gs => fs.length == gs.length && sameFields fs gs
  | v, w => v.compareNumbers? w == some .eq

/-- Whether two lists have the same elements in the same order. -/
def sameElements : List Value → List Value → Bool
  | [], [] => true
  | v :: rest, w :: others => v.same w && sameElements rest others
  | _, _ => false

/-- Whether each field has the same value among the others. -/
def sameFields : List (String × Value) → List (String × Value) → Bool
  | [], _ => true
  | (name, v) :: rest, others =>
    (match field? name others with
      | some w => v.same w
      | none => false) && sameFields rest others

end

/-- Whether the first of two numbers or texts lies strictly below the second. -/
def Value.less (v w : Value) : Bool :=
  match v, w with
  | .string s, .string t => decide (s < t)
  | v, w => v.compareNumbers? w == some .lt

/-! ## Sorting -/

/-- Two values of which neither comes first, by the names of their kinds. -/
structure Unordered where
  first : String
  second : String
  deriving DecidableEq, Repr

mutual

/-- Whether two values are alike when values are sorted: truths count as the numbers zero and one. -/
def Value.alike : Value → Value → Bool
  | .null, .null => true
  | .string s, .string t => s == t
  | .array xs, .array ys => alikeElements xs ys
  | .object fs, .object gs => fs.length == gs.length && alikeFields fs gs
  | v, w => v.ranked.compareNumbers? w.ranked == some .eq

/-- Whether two lists are alike. Inside a container not-a-number is alike itself. -/
def alikeElements : List Value → List Value → Bool
  | [], [] => true
  | v :: rest, w :: others => (v.isNan && w.isNan || v.alike w) && alikeElements rest others
  | _, _ => false

/-- Whether each field is alike the field of its name among the others. -/
def alikeFields : List (String × Value) → List (String × Value) → Bool
  | [], _ => true
  | (name, v) :: rest, others =>
    (match field? name others with
      | some w => v.isNan && w.isNan || v.alike w
      | none => false) && alikeFields rest others

end

mutual

/-- Whether the first value comes before the second when values are sorted: numbers and texts in their order, arrays
by their first difference. All else has no order. -/
def Value.sortsBefore : Value → Value → Except Unordered Bool
  | .string s, .string t => .ok (decide (s < t))
  | .array xs, .array ys => elementsSortBefore xs ys
  | v, w =>
    if v.ranked.isNumber && w.ranked.isNumber then .ok (v.ranked.compareNumbers? w.ranked == some .lt)
    else .error ⟨v.kindName, w.kindName⟩

/-- Whether the first list comes before the second. -/
def elementsSortBefore : List Value → List Value → Except Unordered Bool
  | [], [] => .ok false
  | [], _ :: _ => .ok true
  | _ :: _, [] => .ok false
  | v :: rest, w :: others =>
    if v.isNan && w.isNan || v.alike w then elementsSortBefore rest others else v.sortsBefore w

end

end Schemata.Json

namespace Schemata.Query

/-- Whether two values are related so. Where values have no order, only being the same counts. -/
def Relation.holds (r : Relation) (v w : Json.Value) : Bool :=
  match r with
  | .equal => v.same w
  | .unequal => !v.same w
  | .below => v.less w
  | .atMost => v.less w || v.same w
  | .above => w.less v
  | .atLeast => w.less v || v.same w

end Schemata.Query

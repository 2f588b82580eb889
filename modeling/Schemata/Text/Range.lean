/-!
# Sets of characters given by ranges

A set of code points is a list of closed ranges; `inRanges` decides membership.
-/

namespace Schemata.Text

/-- Closed ranges of code points, in ascending order. -/
abbrev Ranges := List (Nat × Nat)

/-- Whether one of the ranges holds the character. -/
def inRanges (ranges : Ranges) (c : Char) : Bool :=
  ranges.any fun r => r.1 ≤ c.toNat && c.toNat ≤ r.2

end Schemata.Text

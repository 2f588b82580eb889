/-!
# Binary floating-point numbers of 64 bits

A `Double` is not-a-number, an infinity, or a signed significand times a power of two. `Double.ofRatio` rounds a
quotient of naturals to the nearest one, a tie to the even significand, and `Double.ofDecimal` a decimal number;
both give significands below `2 ^ 53` and powers from `-1074` on, with the high bit of the significand set unless the
power is the least. All of it is exact arithmetic on naturals.
-/

namespace Schemata

/-- A number of the binary64 format. -/
inductive Double where
  | nan
  | infinite (negative : Bool)
  /-- `significand * 2 ^ power`, with a sign also for zero. -/
  | finite (negative : Bool) (significand : Nat) (power : Int)
  deriving DecidableEq, Inhabited

namespace Double

/-- The least power of two. -/
def leastPower : Int := -1074

/-- The greatest power of two. -/
def greatestPower : Int := 971

/-- `num / den` as a quotient of naturals when divided by `2 ^ power`. -/
def scaledBy (num den : Nat) (power : Int) : Nat × Nat :=
  if 0 ≤ power then (num, den * Nat.pow 2 power.toNat) else (num * Nat.pow 2 (-power).toNat, den)

/-- The natural number nearest to a quotient; a half goes to the even one. -/
def roundHalfEven (num den : Nat) : Nat :=
  let quotient := num / den
  let twice := 2 * (num % den)
  if twice < den then quotient
  else if den < twice then quotient + 1
  else quotient + quotient % 2

/-- The power of two for which the quotient has 53 binary digits, or the least power. -/
def fittingPower (num den : Nat) : Int :=
  let guess : Int := num.log2 - den.log2 - 53
  let (n, d) := scaledBy num den guess
  max leastPower (if n < d * Nat.pow 2 53 then guess else guess + 1)

/-- The number nearest to a quotient of naturals. -/
def ofRatio (negative : Bool) (num den : Nat) : Double :=
  if num = 0 then finite negative 0 leastPower else
  let power := fittingPower num den
  let (n, d) := scaledBy num den power
  let significand := roundHalfEven n d
  let (significand, power) := if significand = Nat.pow 2 53 then (Nat.pow 2 52, power + 1) else (significand, power)
  if greatestPower < power then infinite negative else finite negative significand power

/-- The number nearest to `digits * 10 ^ scale`, where `digits` has at most `count` decimal digits. Scales that leave
the range on either side are settled without computing the power of ten. -/
def ofDecimal (negative : Bool) (digits count : Nat) (scale : Int) : Double :=
  if digits = 0 ∨ scale + count < -330 then finite negative 0 leastPower
  else if 310 < scale then infinite negative
  else if 0 ≤ scale then ofRatio negative (digits * Nat.pow 10 scale.toNat) 1
  else ofRatio negative digits (Nat.pow 10 (-scale).toNat)

/-! ## Values -/

/-- A finite number as a signed numerator and a denominator. -/
def toRatio (negative : Bool) (significand : Nat) (power : Int) : Int × Nat :=
  let signed : Int := if negative then -(significand : Int) else significand
  if 0 ≤ power then (signed * Int.pow 2 power.toNat, 1) else (signed, Nat.pow 2 (-power).toNat)

/-- The integer that the number is, if it is one. -/
def toInt? : Double → Option Int
  | finite negative significand power =>
    let (num, den) := toRatio negative significand power
    if num % den = 0 then some (num / den) else none
  | _ => none

/-- A number in order: below all, a quotient, above all. Not-a-number has no place. -/
inductive Place where
  | low
  | at (num : Int) (den : Nat)
  | high

/-- The place of a number in the order. -/
def place? : Double → Option Place
  | nan => none
  | infinite negative => some (if negative then .low else .high)
  | finite negative significand power =>
    let (num, den) := toRatio negative significand power
    some (.at num den)

/-- How two places lie. -/
def Place.compare : Place → Place → Ordering
  | .low, .low => .eq
  | .low, _ => .lt
  | _, .low => .gt
  | .high, .high => .eq
  | .high, _ => .gt
  | _, .high => .lt
  | .at a b, .at c d => Ord.compare (a * d) (c * b)

end Double

end Schemata

import Schemata.Number.Double
import Schemata.Text.Decimal

/-!
# The shortest decimal text of a double

`shortest` finds the fewest decimal digits that read back as the number, and of those the nearest to it:
the numbers that round to it form an interval, which has its ends when the significand is even, and for one, two, …
seventeen digits the two neighbours of the number on that decimal grid are tested. `Double.text` writes the digits
positionally when the decimal power is from -4 to 15, and with a signed exponent of two digits or more otherwise.
-/

namespace Schemata.Double

/-- Quotients between which every decimal number reads back as the same double, over one denominator. -/
structure Interval where
  value : Nat
  low : Nat
  high : Nat
  den : Nat
  closed : Bool

/-- The numbers that round to `significand * 2 ^ power`: half a step on each side, a quarter below a power of two. -/
def interval (significand : Nat) (power : Int) : Interval :=
  let down := if significand = Nat.pow 2 52 ∧ leastPower < power then 1 else 2
  let scale := if 2 ≤ power then Nat.pow 2 (power - 2).toNat else 1
  { value := 4 * significand * scale, low := (4 * significand - down) * scale, high := (4 * significand + 2) * scale,
    den := if 2 ≤ power then 1 else Nat.pow 2 (2 - power).toNat, closed := significand % 2 == 0 }

/-- `n * 10 ^ scale / den` as a quotient of naturals. -/
def timesTen (n den : Nat) (scale : Int) : Nat × Nat :=
  if 0 ≤ scale then (n * Nat.pow 10 scale.toNat, den) else (n, den * Nat.pow 10 (-scale).toNat)

/-- Whether `digits / 10 ^ scale` lies in the interval. -/
def Interval.holds (i : Interval) (digits : Nat) (scale : Int) : Bool :=
  let (l, ld) := timesTen i.low i.den scale
  let (h, hd) := timesTen i.high i.den scale
  if i.closed then l ≤ digits * ld && digits * hd ≤ h else l < digits * ld && digits * hd < h

/-- Whether the upper of two neighbours on the grid is strictly nearer to the number, or as near and even. -/
def Interval.prefersUpper (i : Interval) (lower : Nat) (scale : Int) : Bool :=
  let (v, d) := timesTen i.value i.den scale
  let twice := 2 * v
  let middle := (2 * lower + 1) * d
  if twice = middle then lower % 2 == 1 else middle < twice

/-- The neighbour of the number on the grid of `10 ^ -scale` that lies in the interval, the nearer of two. -/
def Interval.onGrid? (i : Interval) (scale : Int) : Option Nat :=
  let (v, d) := timesTen i.value i.den scale
  let lower := v / d
  match i.holds lower scale, i.holds (lower + 1) scale with
  | true, true => some (if i.prefersUpper lower scale then lower + 1 else lower)
  | true, false => some lower
  | false, true => some (lower + 1)
  | false, false => none

/-- The count of digits before the decimal point: the least `k` from the guess on with the number below `10 ^ k`. -/
def Interval.magnitude (i : Interval) : Nat → Int → Int
  | 0, k => k
  | fuel + 1, k =>
    let (v, d) := timesTen i.value i.den (-k)
    if v < d then k else i.magnitude fuel (k + 1)

/-- A guess that is at most the magnitude and at most two below it: the binary magnitude times 0.30103. -/
def Interval.magnitudeGuess (i : Interval) : Int :=
  ((i.value.log2 : Int) - i.den.log2 - 1) * 30103 / 100000

/-- The first grid from `count` digits on that has a point in the interval, with the point. -/
def Interval.firstGrid (i : Interval) (magnitude : Int) : Nat → Nat → Nat × Int
  | 0, count => (0, count)
  | fuel + 1, count =>
    let scale := (count : Int) - magnitude
    match i.onGrid? scale with
    | some digits => (digits, scale)
    | none => i.firstGrid magnitude fuel (count + 1)

/-- The fewest digits that read back, and the count of them that stand after the decimal point. -/
def shortest (significand : Nat) (power : Int) : Nat × Int :=
  let i := interval significand power
  i.firstGrid (i.magnitude 4 i.magnitudeGuess) 17 1

/-- The digits without the zeros at their end, and how many there were. -/
def withoutTrailingZeros (digits : List Char) : List Char × Nat :=
  let kept := (digits.reverse.dropWhile (· == '0')).reverse
  (kept, digits.length - kept.length)

/-- An exponent: a sign and at least two digits. -/
def exponentText (e : Int) : List Char :=
  let digits := Text.decimalDigits e.natAbs
  'e' :: (if e < 0 then '-' else '+') :: (if digits.length < 2 then '0' :: digits else digits)

/-- Digits with the decimal point after the first `point` of them, which may lie outside. -/
def layout (digits : List Char) (point : Int) : List Char :=
  if -4 < point ∧ point ≤ 16 then
    if point ≤ 0 then '0' :: '.' :: List.replicate (-point).toNat '0' ++ digits
    else
      let whole := digits.take point.toNat
      let fraction := digits.drop point.toNat
      whole ++ List.replicate (point.toNat - whole.length) '0' ++ '.' :: (if fraction = [] then ['0'] else fraction)
  else
    let tail := digits.drop 1
    digits.take 1 ++ (if tail = [] then [] else '.' :: tail) ++ exponentText (point - 1)

/-- The text of a double: `nan`, `inf`, or the shortest digits that read back. -/
def text : Double → String
  | nan => "nan"
  | infinite negative => if negative then "-inf" else "inf"
  | finite negative significand power =>
    let sign := if negative then ['-'] else []
    if significand = 0 then String.ofList (sign ++ ['0', '.', '0']) else
    let (digits, scale) := shortest significand power
    let written := Text.decimalDigits digits
    String.ofList (sign ++ layout (withoutTrailingZeros written).1 (written.length - scale))

end Schemata.Double

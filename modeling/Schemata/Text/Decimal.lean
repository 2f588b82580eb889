import Schemata.Text.Digit

/-!
# Decimal digits of a number

`decimalDigits` writes a natural number, `decimalInt` an integer with its minus sign; `digitsValue` reads digits back.
Numbers of more than `maxDigits` digits are neither read nor written: `isWritable` tells which integers have a text that
is given out.
-/

namespace Schemata.Text

/-- The most digits that a number may have. -/
def maxDigits : Nat := 4300

/-- The digit of a number below ten. -/
def digitOf (n : Nat) : Char := Char.ofNat (48 + n)

/-- The digits of a number in front of those already written. -/
def decimalOnto (n : Nat) (written : List Char) : List Char :=
  if h : n < 10 then digitOf n :: written else decimalOnto (n / 10) (digitOf (n % 10) :: written)
termination_by n
decreasing_by omega

/-- The decimal digits of a natural number. -/
def decimalDigits (n : Nat) : List Char := decimalOnto n []

/-- The decimal text of an integer. -/
def decimalInt : Int → List Char
  | .ofNat n => decimalDigits n
  | .negSucc n => '-' :: decimalDigits (n + 1)

/-- An integer as a text, however many digits it has. -/
def ofInt (n : Int) : String := String.ofList (decimalInt n)

/-- Whether an integer may be written: it has no more digits than a number may have. The sign does not count. -/
def isWritable (n : Int) : Bool := n.natAbs < Nat.pow 10 maxDigits

/-- What is said where an integer is to be written that may not be. -/
def unwritableMessage : String :=
  "Exceeds the limit (" ++ toString maxDigits ++
    " digits) for integer string conversion; use sys.set_int_max_str_digits() to increase the limit"

/-- A natural number as a text. -/
def ofNat (n : Nat) : String := String.ofList (decimalDigits n)

/-- The value of decimal digits, the highest first. -/
def digitsValue (cs : List Char) : Nat := cs.foldl (fun n c => n * 10 + (c.toNat - 48)) 0

end Schemata.Text

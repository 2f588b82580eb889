import Schemata.Text.Blank
import Schemata.Text.Decimal

/-!
# Integers as people write them

`integer?` reads an integer with blanks around it, a sign, digits of any script and single underscores between
digits. More than `maxDigits` digits are no integer.
-/

namespace Schemata.Text

/-- Whether the character is a blank beside a number: the information separators are not. -/
def isNumberBlank (c : Char) : Bool := c == ' ' || inRanges [(0x9, 0xd)] c || inRanges wideBlankRanges c

/-- Reads digits with single underscores between them. The value and the count of the digits before are given, and
whether the last character was a digit. -/
def readDigits (value count : Nat) (afterDigit : Bool) : List Char → Option Nat
  | [] => if afterDigit then some value else none
  | c :: rest =>
    match digitValue? c with
    | some d => if count < maxDigits then readDigits (value * 10 + d) (count + 1) true rest else none
    | none => if c = '_' ∧ afterDigit then readDigits value count false rest else none

/-- An integer without blanks around it. -/
def signed? : List Char → Option Int
  | '-' :: digits => (readDigits 0 0 false digits).map fun n => -(n : Int)
  | '+' :: digits => (readDigits 0 0 false digits).map (↑·)
  | digits => (readDigits 0 0 false digits).map (↑·)

/-- The integer that a text shows. -/
def integer? (text : String) : Option Int := signed? (trimBoth isNumberBlank text.toList)

end Schemata.Text

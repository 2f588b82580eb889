import Schemata.Text.Range

/-!
# Blank characters

The spaces, tabs and line ends of Unicode 14 together with the four information separators. `trim` takes them off
both ends of a text.
-/

namespace Schemata.Text

/-- Blanks below 128: tab to carriage return, the information separators, the space. -/
def asciiBlankRanges : Ranges := [(0x9, 0xd), (0x1c, 0x20)]

/-- Blanks from 128 on. -/
def wideBlankRanges : Ranges :=
  [(0x85, 0x85), (0xa0, 0xa0), (0x1680, 0x1680), (0x2000, 0x200a), (0x2028, 0x2029), (0x202f, 0x202f),
    (0x205f, 0x205f), (0x3000, 0x3000)]

/-- Whether the character is a blank of any script. -/
def isBlank (c : Char) : Bool := inRanges asciiBlankRanges c || inRanges wideBlankRanges c

/-- The text without the characters of a class at its end. -/
def trimEnd (p : Char → Bool) (cs : List Char) : List Char := (cs.reverse.dropWhile p).reverse

/-- The text without the characters of a class at either end. -/
def trimBoth (p : Char → Bool) (cs : List Char) : List Char := trimEnd p (cs.dropWhile p)

/-- The text without blanks at either end. -/
def trim (text : String) : String := String.ofList (trimBoth isBlank text.toList)

end Schemata.Text

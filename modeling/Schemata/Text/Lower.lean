import Schemata.Text.Cased
import Schemata.Text.SmallForm

/-!
# Small letters

`lower` writes a text in small letters by the full rules of Unicode 14: each capital by its small form, the dotted
capital I by two characters, and the capital sigma by its final form at the end of a word. A sigma ends a word when,
marks and modifiers looked through, a cased letter stands before it and none after it (`endsWord`).
-/

namespace Schemata.Text

/-- Whether the nearest character that is not looked through is a cased letter. -/
def meetsCasedLetter (cs : List Char) : Bool :=
  match cs.dropWhile isCaseIgnorable with
  | c :: _ => isCasedLetter c
  | [] => false

/-- Whether a sigma with these characters before it, the nearest first, and these after it ends a word. -/
def endsWord (before after : List Char) : Bool := meetsCasedLetter before && !meetsCasedLetter after

/-- The small form of a character in its context. -/
def lowerChar (before : List Char) (c : Char) (after : List Char) : List Char :=
  if c = 'Σ' then [if endsWord before after then 'ς' else 'σ']
  else if c = 'İ' then ['i', '\u0307']
  else [Char.ofNat (smallForm c.toNat)]

/-- Writes the rest of a text behind what is written, the latest first. -/
def lowerOnto (done before : List Char) : List Char → List Char
  | [] => done.reverse
  | c :: after => lowerOnto ((lowerChar before c after).reverse ++ done) (c :: before) after

/-- The text in small letters. -/
def lower (text : String) : String := String.ofList (lowerOnto [] [] text.toList)

end Schemata.Text

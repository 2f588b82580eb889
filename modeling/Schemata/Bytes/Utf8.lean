import Schemata.Bytes.Hex
import Schemata.Text.Decimal

/-!
# The octets of a character

`Lead.ofBytes` says what the first octets of a text are: a character, a start that needs more octets, or no start of a
character at all. A second octet is checked for overlong forms, surrogates and code points above `U+10FFFF`, so that
what is wrong is known at the first wrong octet. `utf8Fault?` finds the first place where octets are no text, and
`charsWithin` reads octets that may have such places.
-/

namespace Schemata.Bytes

/-- What the first octets of a text are. -/
inductive Lead where
  /-- A character, and the count of its octets. -/
  | char (c : Char) (width : Nat)
  /-- The start of a character, with octets missing. -/
  | short
  /-- An octet that starts no character. -/
  | badStart
  /-- A start of the given count of octets that the next octet does not go on. -/
  | badNext (width : Nat)
  deriving DecidableEq, Repr

/-- Whether an octet goes on a character. -/
def isContinuation (b : UInt8) : Bool := 0x80 ≤ b && b < 0xc0

/-- The count of octets that a first octet asks for, if it starts a character. -/
def utf8Width? (b : UInt8) : Option Nat :=
  if b < 0x80 then some 1
  else if b < 0xc2 then none
  else if b < 0xe0 then some 2
  else if b < 0xf0 then some 3
  else if b < 0xf5 then some 4
  else none

/-- Whether a second octet fits the first. -/
def fitsSecond (first second : UInt8) : Bool :=
  isContinuation second &&
    (first != 0xe0 || 0xa0 ≤ second) && (first != 0xed || second < 0xa0) &&
    (first != 0xf0 || 0x90 ≤ second) && (first != 0xf4 || second < 0x90)

/-- The code point that the octets of one character hold. -/
def codePoint : Bytes → Nat
  | [a] => a.toNat
  | [a, b] => a.toNat % 32 * 64 + b.toNat % 64
  | [a, b, c] => a.toNat % 16 * 4096 + b.toNat % 64 * 64 + c.toNat % 64
  | [a, b, c, d] => a.toNat % 8 * 262144 + b.toNat % 64 * 4096 + c.toNat % 64 * 64 + d.toNat % 64
  | _ => 0

/-- What the first octets of a text are; there has to be one. -/
def Lead.ofBytes : Bytes → Lead
  | [] => .short
  | first :: rest =>
    match utf8Width? first with
    | none => .badStart
    | some width =>
      let following := rest.take (width - 1)
      match following with
      | second :: more =>
        if !fitsSecond first second then .badNext 1
        else
          let good := more.takeWhile isContinuation
          if good.length < more.length then .badNext (2 + good.length)
          else if following.length < width - 1 then .short
          else .char (Char.ofNat (codePoint (first :: following))) width
      | [] => if width = 1 then .char (Char.ofNat first.toNat) 1 else .short

/-- Where and why octets are no text. -/
structure Utf8Fault where
  /-- The place of the first wrong octet. -/
  position : Nat
  /-- How many octets are wrong together. -/
  width : Nat
  octet : UInt8
  reason : String
  deriving DecidableEq, Repr

/-- The first fault of octets that start at a position. -/
def utf8FaultFrom (position : Nat) (bytes : Bytes) : Option Utf8Fault :=
  match bytes with
  | [] => none
  | first :: rest =>
    match Lead.ofBytes (first :: rest) with
    | .char _ width => utf8FaultFrom (position + width) (rest.drop (width - 1))
    | .short => some ⟨position, (first :: rest).length, first, "unexpected end of data"⟩
    | .badStart => some ⟨position, 1, first, "invalid start byte"⟩
    | .badNext width => some ⟨position, width, first, "invalid continuation byte"⟩
termination_by bytes.length
decreasing_by simp only [List.length_drop, List.length_cons]; omega

/-- The first fault of octets that are no text. -/
def utf8Fault? (bytes : Bytes) : Option Utf8Fault := utf8FaultFrom 0 bytes

/-- A fault in words. -/
def Utf8Fault.message (fault : Utf8Fault) : String :=
  if fault.width = 1 then
    "'utf-8' codec can't decode byte 0x" ++ hex [fault.octet] ++ " in position " ++ Text.ofNat fault.position ++ ": "
      ++ fault.reason
  else
    "'utf-8' codec can't decode bytes in position " ++ Text.ofNat fault.position ++ "-"
      ++ Text.ofNat (fault.position + fault.width - 1) ++ ": " ++ fault.reason

/-- The character that stands for octets that are no text. -/
def replacement : Char := '\ufffd'

/-- The characters of octets, with one replacement for each part that is wrong together. -/
def charsWithin (bytes : Bytes) : List Char :=
  match bytes with
  | [] => []
  | first :: rest =>
    match Lead.ofBytes (first :: rest) with
    | .char c width => c :: charsWithin (rest.drop (width - 1))
    | .short => [replacement]
    | .badStart => replacement :: charsWithin rest
    | .badNext width => replacement :: charsWithin (rest.drop (width - 1))
termination_by bytes.length
decreasing_by all_goals simp only [List.length_drop, List.length_cons]; omega

end Schemata.Bytes

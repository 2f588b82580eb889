import Schemata.Bytes

/-!
# Hexadecimal text

Two digits an octet, the higher half first: `hex` writes small letters, `ofHex?` reads either case.
-/

namespace Schemata

/-- The hexadecimal digit of a number below sixteen, in small letters. -/
def hexDigit (n : Nat) : Char :=
  if n < 10 then Char.ofNat (48 + n) else Char.ofNat (87 + n)

/-- The value of a hexadecimal digit of either case. -/
def hexValue? (c : Char) : Option Nat :=
  if '0' ≤ c ∧ c ≤ '9' then some (c.toNat - 48)
  else if 'a' ≤ c ∧ c ≤ 'f' then some (c.toNat - 87)
  else if 'A' ≤ c ∧ c ≤ 'F' then some (c.toNat - 55)
  else none

/-- The value of hexadecimal digits, the highest first. -/
def hexNumber? (digits : List Char) : Option Nat :=
  digits.foldl (fun n c => n.bind fun n => (hexValue? c).map (n * 16 + ·)) (some 0)

namespace Bytes

/-- The two digits of an octet. -/
def hexPair (b : UInt8) : List Char := [hexDigit (b.toNat / 16), hexDigit (b.toNat % 16)]

/-- The hexadecimal text of a byte string. -/
def hex (bytes : Bytes) : String := String.ofList (bytes.flatMap hexPair)

/-- Reads pairs of digits onto the octets already read, the latest first. -/
def readHex : Bytes → List Char → Option Bytes
  | done, [] => some done.reverse
  | _, [_] => none
  | done, high :: low :: rest =>
    match hexNumber? [high, low] with
    | some n => readHex (UInt8.ofNat n :: done) rest
    | none => none

/-- The byte string with this hexadecimal text. -/
def ofHex? (text : String) : Option Bytes := readHex [] text.toList

end Bytes

end Schemata

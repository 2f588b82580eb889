import Schemata.Bytes

/-!
# Base64 text

Three octets become four letters of the standard alphabet; a last group of one or two octets is filled up with `=`.
`base64` writes and `ofBase64?` reads.
-/

namespace Schemata.Bytes

/-- The letters of the values 0 to 63. -/
def base64Alphabet : List Char :=
  "ABCDEFGHIJKLMNOPQRSTUVWXYZabcdefghijklmnopqrstuvwxyz0123456789+/".toList

/-- The letter of a value below 64. -/
def base64Letter (n : Nat) : Char := base64Alphabet.getD n '='

/-- The value of a letter. -/
def base64Value? (c : Char) : Option Nat := base64Alphabet.findIdx? (· == c)

/-- Writes octets behind the letters already written, the latest first. -/
def base64Onto : List Char → Bytes → List Char
  | done, a :: b :: c :: rest =>
    base64Onto (base64Letter (c.toNat % 64) :: base64Letter (b.toNat % 16 * 4 + c.toNat / 64) ::
      base64Letter (a.toNat % 4 * 16 + b.toNat / 16) :: base64Letter (a.toNat / 4) :: done) rest
  | done, [a, b] =>
    '=' :: base64Letter (b.toNat % 16 * 4) :: base64Letter (a.toNat % 4 * 16 + b.toNat / 16) ::
      base64Letter (a.toNat / 4) :: done
  | done, [a] => '=' :: '=' :: base64Letter (a.toNat % 4 * 16) :: base64Letter (a.toNat / 4) :: done
  | done, [] => done

/-- The base64 text of a byte string. -/
def base64 (bytes : Bytes) : String := String.ofList (base64Onto [] bytes).reverse

/-- Reads groups of four letters behind the octets already read, the latest first. -/
def readBase64 : Bytes → List Char → Option Bytes
  | done, [] => some done.reverse
  | done, [w, x, '=', '='] => do
    let w ← base64Value? w
    let x ← base64Value? x
    some (UInt8.ofNat (w * 4 + x / 16) :: done).reverse
  | done, [w, x, y, '='] => do
    let w ← base64Value? w
    let x ← base64Value? x
    let y ← base64Value? y
    some (UInt8.ofNat (x % 16 * 16 + y / 4) :: UInt8.ofNat (w * 4 + x / 16) :: done).reverse
  | done, w :: x :: y :: z :: rest => do
    let w ← base64Value? w
    let x ← base64Value? x
    let y ← base64Value? y
    let z ← base64Value? z
    readBase64 (UInt8.ofNat (y % 4 * 64 + z) :: UInt8.ofNat (x % 16 * 16 + y / 4) :: UInt8.ofNat (w * 4 + x / 16) :: done)
      rest
  | _, _ => none

/-- The byte string with this base64 text. -/
def ofBase64? (text : String) : Option Bytes := readBase64 [] text.toList

/-- What was already written stays behind what is written. -/
theorem base64Onto_eq : ∀ (done : List Char) (bytes : Bytes), base64Onto done bytes = base64Onto [] bytes ++ done
  | done, a :: b :: c :: rest => by
    rw [base64Onto, base64Onto_eq _ rest, base64Onto, base64Onto_eq [_, _, _, _] rest]
    simp
  | _, [_, _] => by simp [base64Onto]
  | _, [_] => by simp [base64Onto]
  | _, [] => by simp [base64Onto]

end Schemata.Bytes

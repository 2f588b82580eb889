import Schemata.Bytes

/-!
# Numbers as octets, highest first

`bigEndian w n` writes `n` in exactly `w` octets and `ofBigEndian` reads them back. Since the width is fixed, the octets
are ordered as the numbers are.
-/

namespace Schemata.Bytes

/-- The `width` octets of a number below `256 ^ width`, the highest first. -/
def bigEndian : Nat → Nat → Bytes
  | 0, _ => []
  | width + 1, n => UInt8.ofNat (n / Nat.pow 256 width) :: bigEndian width (n % Nat.pow 256 width)

/-- The number whose octets, the highest first, are given. -/
def ofBigEndian (bytes : Bytes) : Nat := bytes.foldl (fun n b => n * 256 + b.toNat) 0

@[simp] theorem length_bigEndian (width n : Nat) : (bigEndian width n).length = width := by
  induction width generalizing n with
  | zero => rfl
  | succ width ih => simp [bigEndian, ih]

end Schemata.Bytes

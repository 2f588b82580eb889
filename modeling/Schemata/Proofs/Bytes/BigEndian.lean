import Mathlib.Algebra.Group.Int.Defs
import Mathlib.Algebra.Group.Nat.Defs
import Schemata.Bytes.BigEndian

/-!
# Numbers in octets

Numbers are read back from their octets (`ofBigEndian_bigEndian`). Those written in the same count of octets are ordered
as their octets are (`bigEndian_lt_iff`), so different numbers have different octets (`bigEndian_injective`).
-/

namespace Schemata.Bytes

/-! ## Reading back -/

/-- The highest octet and then the others. The definition names `Nat.pow`, and all that follows is said with `^`. -/
theorem bigEndian_succ (width n : Nat) :
    bigEndian (width + 1) n = UInt8.ofNat (n / 256 ^ width) :: bigEndian width (n % 256 ^ width) := rfl

theorem foldl_bigEndian (bytes : Bytes) (n : Nat) :
    bytes.foldl (fun n b => n * 256 + b.toNat) n = n * 256 ^ bytes.length + ofBigEndian bytes := by
  induction bytes generalizing n with
  | nil => simp [ofBigEndian]
  | cons b r ih =>
    have h0 : ofBigEndian (b :: r) = b.toNat * 256 ^ r.length + ofBigEndian r := by
      simp only [ofBigEndian, List.foldl_cons, Nat.zero_mul, Nat.zero_add]
      exact ih b.toNat
    rw [List.foldl_cons, ih, h0, List.length_cons, Nat.pow_succ, Nat.add_mul, Nat.mul_assoc, Nat.mul_comm 256,
      Nat.add_assoc]

theorem ofBigEndian_cons (b : UInt8) (r : Bytes) :
    ofBigEndian (b :: r) = b.toNat * 256 ^ r.length + ofBigEndian r := by
  have h := foldl_bigEndian r b.toNat
  simpa [ofBigEndian] using h

theorem ofBigEndian_bigEndian {width n : Nat} (h : n < 256 ^ width) : ofBigEndian (bigEndian width n) = n := by
  induction width generalizing n with
  | zero => simp at h; subst h; rfl
  | succ width ih =>
    have hpos : 0 < 256 ^ width := Nat.pow_pos (by decide)
    have hq : n / 256 ^ width < 256 := Nat.div_lt_of_lt_mul (by rw [← Nat.pow_succ]; exact h)
    rw [bigEndian_succ, ofBigEndian_cons, ih (Nat.mod_lt _ hpos), length_bigEndian]
    simp only [UInt8.toNat_ofNat', Nat.reducePow, Nat.mod_eq_of_lt hq]
    rw [Nat.mul_comm]; exact Nat.div_add_mod n _

/-! ## Order -/

/-- Numbers are compared by their quotients first and then by their remainders. -/
theorem lt_iff_div_lt_or_mod_lt (a b : Nat) {c : Nat} (hc : 0 < c) :
    a < b ↔ a / c < b / c ∨ a / c = b / c ∧ a % c < b % c := by
  have ha := Nat.div_add_mod a c
  have hb := Nat.div_add_mod b c
  have hma := Nat.mod_lt a hc
  have hmb := Nat.mod_lt b hc
  rcases Nat.lt_trichotomy (a / c) (b / c) with h | h | h
  · have : c * (a / c + 1) ≤ c * (b / c) := Nat.mul_le_mul_left c h
    rw [Nat.mul_add, Nat.mul_one] at this
    omega
  · rw [h] at ha
    omega
  · have : c * (b / c + 1) ≤ c * (a / c) := Nat.mul_le_mul_left c h
    rw [Nat.mul_add, Nat.mul_one] at this
    omega

theorem ofNat_lt_ofNat_iff {a b : Nat} (ha : a < 256) (hb : b < 256) : UInt8.ofNat a < UInt8.ofNat b ↔ a < b := by
  rw [UInt8.lt_iff_toNat_lt, UInt8.toNat_ofNat', UInt8.toNat_ofNat', Nat.mod_eq_of_lt ha, Nat.mod_eq_of_lt hb]

theorem ofNat_eq_ofNat_iff {a b : Nat} (ha : a < 256) (hb : b < 256) : UInt8.ofNat a = UInt8.ofNat b ↔ a = b := by
  rw [← UInt8.toNat_inj, UInt8.toNat_ofNat', UInt8.toNat_ofNat', Nat.mod_eq_of_lt ha, Nat.mod_eq_of_lt hb]

/-- **The octets of numbers are ordered as the numbers.** -/
theorem bigEndian_lt_iff {width a b : Nat} (ha : a < 256 ^ width) (hb : b < 256 ^ width) :
    bigEndian width a < bigEndian width b ↔ a < b := by
  induction width generalizing a b with
  | zero =>
    simp only [Nat.pow_zero] at ha hb
    simp [bigEndian]
    omega
  | succ width ih =>
    have hpos : 0 < 256 ^ width := Nat.pow_pos (by decide)
    have hqa : a / 256 ^ width < 256 := Nat.div_lt_of_lt_mul (by rw [← Nat.pow_succ]; exact ha)
    have hqb : b / 256 ^ width < 256 := Nat.div_lt_of_lt_mul (by rw [← Nat.pow_succ]; exact hb)
    rw [bigEndian_succ, bigEndian_succ, List.cons_lt_cons_iff, ofNat_lt_ofNat_iff hqa hqb, ofNat_eq_ofNat_iff hqa hqb,
      ih (Nat.mod_lt _ hpos) (Nat.mod_lt _ hpos), lt_iff_div_lt_or_mod_lt a b hpos]

theorem bigEndian_injective {width a b : Nat} (ha : a < 256 ^ width) (hb : b < 256 ^ width)
    (h : bigEndian width a = bigEndian width b) : a = b := by
  rw [← ofBigEndian_bigEndian ha, h, ofBigEndian_bigEndian hb]

end Schemata.Bytes

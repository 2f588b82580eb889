import Mathlib.Algebra.Group.Nat.Defs
import Schemata.Text.Decimal

/-!
# Decimal digits are read back

The digits of a number are those of its tenth and then its last one (`decimalDigits_of_ge`), which is how everything
below goes by induction (`decimalInduction`): they have the number as their value (`digitsValue_decimalDigits`), there
is no zero in front unless the number is zero (`head?_decimalDigits_ne`), and they are as few as can be
(`length_decimalDigits_le`). A number that may be written is one with few enough digits (`isWritable_iff`).
-/

namespace Schemata.Text

/-! ## The last digit -/

theorem decimalOnto_of_lt {n : Nat} (h : n < 10) (written : List Char) :
    decimalOnto n written = digitOf n :: written := by
  rw [decimalOnto, dif_pos h]

theorem decimalOnto_of_ge {n : Nat} (h : 10 ≤ n) (written : List Char) :
    decimalOnto n written = decimalOnto (n / 10) (digitOf (n % 10) :: written) := by
  rw [decimalOnto, dif_neg (by omega)]

/-- The digits stand in front of what was written before them. -/
theorem decimalOnto_eq (n : Nat) (written : List Char) : decimalOnto n written = decimalDigits n ++ written := by
  induction n using Nat.strongRecOn generalizing written with
  | ind n ih =>
    by_cases h : n < 10
    · rw [decimalDigits, decimalOnto_of_lt h, decimalOnto_of_lt h]
      rfl
    · have h10 : 10 ≤ n := by omega
      have htenth : n / 10 < n := by omega
      rw [decimalDigits, decimalOnto_of_ge h10, decimalOnto_of_ge h10, ih _ htenth, ih _ htenth, List.append_assoc]
      rfl

theorem decimalDigits_of_lt {n : Nat} (h : n < 10) : decimalDigits n = [digitOf n] := decimalOnto_of_lt h []

theorem decimalDigits_of_ge {n : Nat} (h : 10 ≤ n) :
    decimalDigits n = decimalDigits (n / 10) ++ [digitOf (n % 10)] := by
  rw [decimalDigits, decimalOnto_of_ge h, decimalOnto_eq]

/-- From a number's tenth to the number. -/
theorem decimalInduction {P : Nat → Prop} (small : ∀ n < 10, P n) (step : ∀ n, 10 ≤ n → P (n / 10) → P n) (n : Nat) :
    P n := by
  induction n using Nat.strongRecOn with
  | ind n ih =>
    by_cases h : n < 10
    · exact small n h
    · exact step n (by omega) (ih (n / 10) (by omega))

/-! ## What the digits are -/

theorem toNat_digitOf : ∀ d < 10, (digitOf d).toNat = 48 + d := by decide

/-- Every character is the digit of a number below ten. -/
theorem exists_of_mem_decimalDigits {n : Nat} {c : Char} (h : c ∈ decimalDigits n) : ∃ d < 10, c = digitOf d := by
  induction n using decimalInduction with
  | small n hn =>
    rw [decimalDigits_of_lt hn, List.mem_singleton] at h
    exact ⟨n, hn, h⟩
  | step n hn ih =>
    rw [decimalDigits_of_ge hn, List.mem_append, List.mem_singleton] at h
    rcases h with h | h
    · exact ih h
    · exact ⟨n % 10, by omega, h⟩

theorem decimalDigits_ne_nil (n : Nat) : decimalDigits n ≠ [] := by
  by_cases h : n < 10
  · rw [decimalDigits_of_lt h]
    simp
  · rw [decimalDigits_of_ge (by omega)]
    simp

/-- There is no zero in front, unless it is all there is. -/
theorem head?_decimalDigits_ne {n : Nat} (h : 0 < n) : (decimalDigits n).head? ≠ some '0' := by
  induction n using decimalInduction with
  | small n hn =>
    rw [decimalDigits_of_lt hn]
    intro hzero
    have hcode := toNat_digitOf n hn
    rw [Option.some.inj hzero] at hcode
    simp at hcode
    omega
  | step n hn ih =>
    have htenth := ih (by omega)
    rw [decimalDigits_of_ge hn]
    cases hdigits : decimalDigits (n / 10) with
    | nil => exact absurd hdigits (decimalDigits_ne_nil _)
    | cons c cs =>
      rw [hdigits] at htenth
      exact htenth

/-! ## Their value and their count -/

theorem digitsValue_concat (cs : List Char) (c : Char) :
    digitsValue (cs ++ [c]) = digitsValue cs * 10 + (c.toNat - 48) := by
  simp [digitsValue]

/-- **The digits of a number have it as their value.** -/
theorem digitsValue_decimalDigits (n : Nat) : digitsValue (decimalDigits n) = n := by
  induction n using decimalInduction with
  | small n hn =>
    rw [decimalDigits_of_lt hn, ← List.nil_append [_], digitsValue_concat, toNat_digitOf n hn]
    simp [digitsValue]
  | step n hn ih =>
    rw [decimalDigits_of_ge hn, digitsValue_concat, ih, toNat_digitOf (n % 10) (by omega)]
    omega

/-- A number below a power of ten has no more digits than the power has zeros. -/
theorem length_decimalDigits_le {n k : Nat} (hk : 0 < k) (h : n < 10 ^ k) : (decimalDigits n).length ≤ k := by
  induction n using decimalInduction generalizing k with
  | small n hn =>
    rw [decimalDigits_of_lt hn]
    exact hk
  | step n hn ih =>
    obtain _ | _ | k := k
    · omega
    · omega
    · rw [Nat.pow_succ] at h
      have := ih (Nat.succ_pos k) (by omega)
      rw [decimalDigits_of_ge hn, List.length_append, List.length_singleton]
      omega

/-- A number from a power of ten on has more digits than the power has zeros. -/
theorem lt_length_decimalDigits {n k : Nat} (h : 10 ^ k ≤ n) : k < (decimalDigits n).length := by
  induction n using decimalInduction generalizing k with
  | small n hn =>
    rw [decimalDigits_of_lt hn, List.length_singleton]
    obtain _ | k := k
    · exact Nat.one_pos
    · rw [Nat.pow_succ] at h
      have := Nat.pow_pos (n := k) (show 0 < 10 by decide)
      omega
  | step n hn ih =>
    rw [decimalDigits_of_ge hn, List.length_append, List.length_singleton]
    obtain _ | k := k
    · omega
    · rw [Nat.pow_succ] at h
      have := ih (k := k) (by omega)
      omega

/-! ## Numbers that may be written -/

theorem isWritable_iff {n : Int} : isWritable n = true ↔ n.natAbs < 10 ^ maxDigits := by
  rw [isWritable, decide_eq_true_eq, Nat.pow_eq]

theorem not_isWritable_iff {n : Int} : isWritable n = false ↔ 10 ^ maxDigits ≤ n.natAbs := by
  rw [isWritable, decide_eq_false_iff_not, Nat.not_lt, Nat.pow_eq]

/-- Numbers around those that eight octets can hold may be written. -/
theorem isWritable_of_le {n : Int} (h : n.natAbs ≤ 2 ^ 64) : isWritable n = true :=
  isWritable_iff.2 <| calc
    n.natAbs ≤ 2 ^ 64 := h
    _ < 10 ^ 20 := by decide
    _ ≤ 10 ^ maxDigits := Nat.pow_le_pow_right (by decide) (by decide)

end Schemata.Text

import Schemata.Proofs.Text.Decimal
import Schemata.Text.Integer

/-!
# Written numbers are integers

A digit is no blank and has its value (`digitOf_spec`), so digits in a row are read as the value they have, if there are
not too many of them (`readDigits_of_digits`), and a written natural number is read back (`integer?_ofNat`).
-/

namespace Schemata.Text

theorem digitOf_spec : ∀ d < 10, digitValue? (digitOf d) = some d ∧ isNumberBlank (digitOf d) = false ∧
    digitOf d ≠ '-' ∧ digitOf d ≠ '+' := by decide

/-- A row of digits that is not too long is read as its value. -/
theorem readDigits_of_digits {digits : List Char} (hdigits : ∀ c ∈ digits, ∃ d < 10, c = digitOf d) (value : Nat)
    {count : Nat} (hcount : count + digits.length ≤ maxDigits) {afterDigit : Bool}
    (hafter : afterDigit = true ∨ digits ≠ []) :
    readDigits value count afterDigit digits = some (digits.foldl (fun n c => n * 10 + (c.toNat - 48)) value) := by
  induction digits generalizing value count afterDigit with
  | nil =>
    rcases hafter with rfl | hne
    · rfl
    · exact absurd rfl hne
  | cons c rest ih =>
    obtain ⟨⟨d, hd, rfl⟩, hrest⟩ := List.forall_mem_cons.1 hdigits
    rw [List.length_cons] at hcount
    have hroom : count < maxDigits := by omega
    have hvalue : (digitOf d).toNat - 48 = d := by
      rw [toNat_digitOf d hd]
      omega
    rw [readDigits, (digitOf_spec d hd).1]
    simp only [if_pos hroom, List.foldl_cons, hvalue]
    exact ih hrest _ (by omega) (.inl rfl)

theorem dropWhile_of_forall {p : Char → Bool} {cs : List Char} (h : ∀ c ∈ cs, p c = false) : cs.dropWhile p = cs := by
  cases cs with
  | nil => rfl
  | cons c rest => exact List.dropWhile_cons_of_neg (by simp [h c])

/-- A text without characters of a class is not trimmed. -/
theorem trimBoth_of_forall {p : Char → Bool} {cs : List Char} (h : ∀ c ∈ cs, p c = false) : trimBoth p cs = cs := by
  have hreverse : ∀ c ∈ cs.reverse, p c = false := fun c hc => h c (List.mem_reverse.1 hc)
  rw [trimBoth, trimEnd, dropWhile_of_forall h, dropWhile_of_forall hreverse, List.reverse_reverse]

/-- **A written number is read back**, if it has not too many digits. -/
theorem integer?_ofNat {n : Nat} (hn : n < 10 ^ maxDigits) : integer? (ofNat n) = some (n : Int) := by
  have hdigits : ∀ c ∈ decimalDigits n, ∃ d < 10, c = digitOf d := fun c => exists_of_mem_decimalDigits
  have hblank : ∀ c ∈ decimalDigits n, isNumberBlank c = false := by
    intro c hc
    obtain ⟨d, hd, rfl⟩ := hdigits c hc
    exact (digitOf_spec d hd).2.1
  have hlength : 0 + (decimalDigits n).length ≤ maxDigits := by
    rw [Nat.zero_add]
    exact length_decimalDigits_le (by decide) hn
  have hread : readDigits 0 0 false (decimalDigits n) = _ :=
    readDigits_of_digits hdigits 0 hlength (.inr (decimalDigits_ne_nil n))
  rw [integer?, ofNat, String.toList_ofList, trimBoth_of_forall hblank]
  unfold signed?
  split
  · rename_i rest heq
    obtain ⟨d, hd, hminus⟩ := hdigits '-' (by simp [heq])
    exact absurd hminus.symm (digitOf_spec d hd).2.2.1
  · rename_i rest heq
    obtain ⟨d, hd, hplus⟩ := hdigits '+' (by simp [heq])
    exact absurd hplus.symm (digitOf_spec d hd).2.2.2
  · rw [hread]
    exact congrArg (fun n : Nat => some (n : Int)) (digitsValue_decimalDigits n)

end Schemata.Text

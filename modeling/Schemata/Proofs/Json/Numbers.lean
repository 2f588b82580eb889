import Schemata.Json.Reader
import Schemata.Proofs.Text.Decimal

/-!
# Written integers and literals are read back

Each of the six literals is read as its value (`readScalar_literal`), and none starts like an integer. The digits of an
integer are read to their end when the text behind does not go on with the number (`EndsNumber`); if there are no more
of them than allowed, they are read as the integer, and else they are refused (`readScalar_integer`).
-/

namespace Schemata.Json

variable {cs rest digits : List Char} {c : Char}

/-! ## Literals -/

/-- **A literal is read where a scalar is due.** -/
theorem readScalar_literal (rest : List Char) :
    ∀ l ∈ literals, readScalar (l.1.toList ++ rest) = .ok (l.2, rest) := by
  simp only [literals, List.forall_mem_cons, List.not_mem_nil, false_imp_iff, implies_true, and_true]
  exact ⟨rfl, rfl, rfl, rfl, rfl, rfl⟩

theorem ne_of_isDigit {a : Char} (ha : isDigit a = false) (hc : isDigit c = true) : a ≠ c := by
  rintro rfl
  rw [ha] at hc
  cases hc

/-- No literal starts with a digit. -/
theorem readLiteral_digit (hc : isDigit c = true) : readLiteral (c :: cs) = none := by
  have hn := ne_of_isDigit (show isDigit 'n' = false from rfl) hc
  have ht := ne_of_isDigit (show isDigit 't' = false from rfl) hc
  have hf := ne_of_isDigit (show isDigit 'f' = false from rfl) hc
  have hN := ne_of_isDigit (show isDigit 'N' = false from rfl) hc
  have hI := ne_of_isDigit (show isDigit 'I' = false from rfl) hc
  have hm := ne_of_isDigit (show isDigit '-' = false from rfl) hc
  simp [readLiteral, literals, hn, ht, hf, hN, hI, hm]

/-- No literal starts with a minus sign and a digit. -/
theorem readLiteral_minus (hc : isDigit c = true) : readLiteral ('-' :: c :: cs) = none := by
  have hI := ne_of_isDigit (show isDigit 'I' = false from rfl) hc
  simp [readLiteral, literals, hI]

/-! ## Digits up to the end of the number -/

/-- The text does not go on with a number: there is no digit, no point and no exponent. -/
def EndsNumber (cs : List Char) : Prop := ∀ c ∈ cs.head?, isDigit c = false ∧ c ≠ '.' ∧ c ≠ 'e' ∧ c ≠ 'E'

theorem endsNumber_nil : EndsNumber [] := by
  intro c hc
  cases hc

theorem endsNumber_cons (hdigit : isDigit c = false) (hpoint : c ≠ '.') (he : c ≠ 'e') (hE : c ≠ 'E') :
    EndsNumber (c :: cs) := by
  intro c' hc'
  cases hc'
  exact ⟨hdigit, hpoint, he, hE⟩

theorem spanDigits_append (hdigits : ∀ c ∈ digits, isDigit c = true) (hrest : EndsNumber rest) :
    spanDigits (digits ++ rest) = (digits, rest) := by
  rw [spanDigits, List.takeWhile_append_of_pos hdigits, List.dropWhile_append_of_pos hdigits]
  cases rest with
  | nil => simp
  | cons c after =>
    have hc := (hrest c rfl).1
    simp [hc]

theorem spanFraction_of_ends (hrest : EndsNumber rest) : spanFraction rest = ([], rest) := by
  unfold spanFraction
  split
  · exact absurd rfl (hrest '.' rfl).2.1
  · rfl

theorem spanExponent_of_ends (hrest : EndsNumber rest) : spanExponent rest = (none, rest) := by
  cases rest with
  | nil => rfl
  | cons c after =>
    obtain ⟨-, -, he, hE⟩ := hrest c rfl
    have hnot : ¬ (c = 'e' ∨ c = 'E') := not_or.2 ⟨he, hE⟩
    unfold spanExponent
    exact if_neg hnot

/-! ## Integers -/

theorem isDigit_digitOf : ∀ d < 10, isDigit (Text.digitOf d) = true := by decide

theorem isDigit_of_mem_decimalDigits {n : Nat} (h : c ∈ Text.decimalDigits n) : isDigit c = true := by
  obtain ⟨d, hd, rfl⟩ := Text.exists_of_mem_decimalDigits h
  exact isDigit_digitOf d hd

/-- The digits of a number are its whole part: a zero in front is all there is. -/
theorem spanWhole_decimalDigits (n : Nat) (hrest : EndsNumber rest) :
    spanWhole (Text.decimalDigits n ++ rest) = (Text.decimalDigits n, rest) := by
  obtain rfl | hn := Nat.eq_zero_or_pos n
  · rw [Text.decimalDigits_of_lt (by decide)]
    rfl
  · have hspan := spanDigits_append (fun _ => isDigit_of_mem_decimalDigits (n := n)) hrest
    have hhead := Text.head?_decimalDigits_ne hn
    unfold spanWhole
    split
    · rename_i heq
      cases hdigits : Text.decimalDigits n with
      | nil => exact absurd hdigits (Text.decimalDigits_ne_nil n)
      | cons c cs =>
        rw [hdigits, List.cons_append] at heq
        rw [hdigits, (List.cons.inj heq).1] at hhead
        exact absurd rfl hhead
    · exact hspan

/-- The digits of a number are read as it, if there are not too many of them. -/
theorem readUnsigned_decimalDigits (negative : Bool) (n : Nat) (hrest : EndsNumber rest) :
    readUnsigned negative (Text.decimalDigits n ++ rest) =
      some (if Text.maxDigits < (Text.decimalDigits n).length then .error (.tooManyDigits (Text.decimalDigits n).length)
        else .ok (.int (if negative then -(n : Int) else n), rest)) := by
  unfold readUnsigned
  simp only [spanWhole_decimalDigits n hrest, spanFraction_of_ends hrest, spanExponent_of_ends hrest,
    Text.decimalDigits_ne_nil, Text.digitsValue_decimalDigits, and_self, ↓reduceIte]
  split <;> rfl

theorem exists_cons_decimalDigits (n : Nat) : ∃ c cs, Text.decimalDigits n = c :: cs ∧ isDigit c = true := by
  cases hdigits : Text.decimalDigits n with
  | nil => exact absurd hdigits (Text.decimalDigits_ne_nil n)
  | cons c cs => exact ⟨c, cs, rfl, isDigit_of_mem_decimalDigits (n := n) (by simp [hdigits])⟩

/-- What starts no string and no literal is read as a number. -/
theorem readScalar_of_readNumber {result : Except Stop (Value × List Char)} (hquote : c ≠ '"')
    (hliteral : readLiteral (c :: cs) = none) (h : readNumber (c :: cs) = some result) :
    readScalar (c :: cs) = result := by
  unfold readScalar
  split
  · rename_i heq
    exact absurd (List.cons.inj heq).1 hquote
  · rw [hliteral, h]
    rfl

theorem readNumber_digit (hc : isDigit c = true) : readNumber (c :: cs) = readUnsigned false (c :: cs) := by
  unfold readNumber
  split
  · rename_i heq
    exact absurd (List.cons.inj heq).1.symm (ne_of_isDigit rfl hc)
  · rfl

/-- **A written integer is met where a scalar is due**: it is read, or has too many digits. -/
theorem readScalar_integer (n : Int) (hrest : EndsNumber rest) :
    readScalar (Text.decimalInt n ++ rest) =
      if Text.maxDigits < (Text.decimalDigits n.natAbs).length then
        .error (.tooManyDigits (Text.decimalDigits n.natAbs).length)
      else .ok (.int n, rest) := by
  cases n with
  | ofNat n =>
    have hread := readUnsigned_decimalDigits false n hrest
    obtain ⟨c, cs, hdigits, hc⟩ := exists_cons_decimalDigits n
    have hquote : c ≠ '"' := (ne_of_isDigit rfl hc).symm
    rw [hdigits, List.cons_append, ← readNumber_digit hc] at hread
    have hscalar := readScalar_of_readNumber hquote (readLiteral_digit hc) hread
    rw [← List.cons_append, ← hdigits] at hscalar
    exact hscalar
  | negSucc n =>
    have hread := readUnsigned_decimalDigits true (n + 1) hrest
    obtain ⟨c, cs, hdigits, hc⟩ := exists_cons_decimalDigits (n + 1)
    have hliteral : readLiteral ('-' :: (Text.decimalDigits (n + 1) ++ rest)) = none := by
      rw [hdigits]
      exact readLiteral_minus hc
    exact readScalar_of_readNumber (by decide) hliteral hread

/-- A written integer of no more digits than allowed is read where a scalar is due. -/
theorem readScalar_decimalInt {n : Int} (hn : n.natAbs < 10 ^ Text.maxDigits) (hrest : EndsNumber rest) :
    readScalar (Text.decimalInt n ++ rest) = .ok (.int n, rest) := by
  have hlength := Text.length_decimalDigits_le (k := Text.maxDigits) (by decide) hn
  rw [readScalar_integer n hrest, if_neg (Nat.not_lt.2 hlength)]

end Schemata.Json

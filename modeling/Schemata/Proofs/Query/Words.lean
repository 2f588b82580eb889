import Schemata.Proofs.Text.Decimal
import Schemata.Query.Token

/-!
# The words of written paths

- A text that starts with a word has that word and then the words of the rest (`tokens_cons`); an integer of too many
  digits is the last word (`tokens_tooLong`).
- What starts with neither a mark nor a blank is a name or a number (`readToken_of_not_mark`). So a name
  (`readToken_name`) and the digits of a number (`readToken_decimalDigits`) are read up to the next mark.
- A name in single quotes, with a backslash before each quote and each backslash, is read as itself
  (`readToken_quotedName`).
-/

namespace Schemata.Query

variable {c : Char} {cs rest tail : List Char} {t : Token}

/-! ## One word after the other -/

theorem tokens_nil : tokens [] = [] := by
  rw [tokens]
  rfl

/-- A text that starts with no blank has the word that is read from it, and then those of the rest. -/
theorem tokens_of_not_blank (hblank : isBlank c = false) : tokens (c :: tail) =
    match readToken (c :: tail) with
    | none => [.unreadable]
    | some (.tooLong digits, _) => [.tooLong digits]
    | some (t, rest) => t :: tokens rest := by
  rw [tokens]
  split
  · rename_i heq
    rw [List.dropWhile_cons_of_neg (by simp [hblank])] at heq
    cases heq
  · rename_i heq
    rw [List.dropWhile_cons_of_neg (by simp [hblank])] at heq
    cases heq
    split <;> simp_all

theorem tokens_cons (hblank : isBlank c = false) (h : readToken (c :: tail) = some (t, rest))
    (hshort : ∀ digits, t ≠ .tooLong digits) : tokens (c :: tail) = t :: tokens rest := by
  rw [tokens_of_not_blank hblank, h]
  cases t with
  | tooLong digits => exact absurd rfl (hshort digits)
  | _ => rfl

/-- The words of a text, when the first and those of the rest are known. -/
theorem tokens_eq_cons {words : List Token} (hblank : isBlank c = false) (h : readToken (c :: tail) = some (t, rest))
    (hshort : ∀ digits, t ≠ .tooLong digits) (hrest : tokens rest = words) : tokens (c :: tail) = t :: words := by
  rw [tokens_cons hblank h hshort, hrest]

theorem tokens_tooLong (hblank : isBlank c = false) {digits : Nat}
    (h : readToken (c :: tail) = some (.tooLong digits, rest)) : tokens (c :: tail) = [.tooLong digits] := by
  rw [tokens_of_not_blank hblank, h]

/-! ## Names and numbers -/

/-- The characters that a word other than a name and a number starts with. -/
def marks : List Char := "$@.[](),:*?!&|<>='\"\x60-/\\".toList

theorem sortKey?_of_not_blank (hblank : Text.isBlank c = false) (hslash : c ≠ '/') (hback : c ≠ '\\') :
    sortKey? (c :: tail) = none := by
  rw [sortKey?, List.dropWhile_cons_of_neg (by simp [hblank])]
  split
  · rename_i heq
    exact absurd (List.cons.inj heq).1 hslash
  · rename_i heq
    exact absurd (List.cons.inj heq).1 hback
  · rfl

/-- What starts with neither a blank nor a mark is a name or a number. -/
theorem readToken_of_not_mark (hblank : Text.isBlank c = false) (hmark : c ∉ marks) :
    readToken (c :: tail) =
      if isNameStart c then some (readWord (c :: tail))
      else if isDigit c then readNumber false (c :: tail)
      else none := by
  have hslash : c ≠ '/' := by
    rintro rfl
    exact hmark (by decide)
  have hback : c ≠ '\\' := by
    rintro rfl
    exact hmark (by decide)
  rw [readToken, sortKey?_of_not_blank hblank hslash hback]
  simp only
  unfold readWordToken
  split
  case h_29 heq =>
    cases heq
    rfl
  all_goals (rename_i heq; cases heq)
  all_goals exact absurd (by decide) hmark

/-- A name: it starts and goes on as names do. -/
def IsName (cs : List Char) : Prop := (∃ c tail, cs = c :: tail ∧ isNameStart c = true) ∧ ∀ c ∈ cs, isNamePart c = true

/-- Names start with letters of ASCII or the low line. -/
theorem toNat_of_isNameStart (h : isNameStart c = true) : 65 ≤ c.toNat ∧ c.toNat ≤ 122 := by
  simp only [isNameStart, Bool.or_eq_true, Bool.and_eq_true, decide_eq_true_eq, beq_iff_eq] at h
  have hle : ∀ a b : Char, a ≤ b → a.toNat ≤ b.toNat := fun _ _ => id
  rcases h with (⟨hlow, hhigh⟩ | ⟨hlow, hhigh⟩) | rfl
  · exact ⟨Nat.le_trans (by decide) (hle _ _ hlow), hle _ _ hhigh⟩
  · exact ⟨hle _ _ hlow, Nat.le_trans (hle _ _ hhigh) (by decide)⟩
  · decide

theorem textBlank_of_isNameStart (h : isNameStart c = true) : Text.isBlank c = false := by
  obtain ⟨hlow, hhigh⟩ := toNat_of_isNameStart h
  apply Bool.eq_false_iff.2
  intro hblank
  simp [Text.isBlank, Text.inRanges, Text.asciiBlankRanges, Text.wideBlankRanges] at hblank
  omega

/-- A blank between words is one of the blanks of all scripts. -/
theorem isBlank_of_textBlank (h : Text.isBlank c = false) : isBlank c = false := by
  apply Bool.eq_false_iff.2
  intro hblank
  simp only [isBlank, Bool.or_eq_true, beq_iff_eq] at hblank
  rcases hblank with (rfl | rfl) | rfl <;> exact absurd h (by decide)

theorem not_mem_marks_of_isNameStart (h : isNameStart c = true) : c ∉ marks := by
  intro hmem
  have hnone : marks.all (fun c => !isNameStart c) = true := by decide
  have hc := List.all_eq_true.1 hnone c hmem
  rw [h] at hc
  cases hc

/-- A name is read to its end. -/
theorem readToken_name (hname : IsName cs) (hrest : ∀ c ∈ rest.head?, isNamePart c = false) :
    readToken (cs ++ rest) = some (wordToken (String.ofList cs), rest) := by
  obtain ⟨⟨c, tail, rfl, hc⟩, hparts⟩ := hname
  rw [List.cons_append, readToken_of_not_mark (textBlank_of_isNameStart hc) (not_mem_marks_of_isNameStart hc),
    if_pos hc, ← List.cons_append, readWord, List.takeWhile_append_of_pos hparts,
    List.dropWhile_append_of_pos hparts]
  cases rest with
  | nil => simp
  | cons d after => simp [hrest d rfl]

/-! ## Digits -/

theorem digitOf_spec : ∀ d < 10, Text.digitValue? (Text.digitOf d) = some d ∧ Text.isBlank (Text.digitOf d) = false ∧
    Text.digitOf d ∉ marks ∧ isNameStart (Text.digitOf d) = false := by decide

theorem isDigit_digitOf {d : Nat} (h : d < 10) : isDigit (Text.digitOf d) = true := by
  rw [isDigit, (digitOf_spec d h).1]
  rfl

/-- The digits of a number have it as their value. -/
theorem digitsValue_decimalDigits (n : Nat) : digitsValue (Text.decimalDigits n) = n := by
  have hconcat : ∀ (cs : List Char) (d : Nat), d < 10 →
      digitsValue (cs ++ [Text.digitOf d]) = digitsValue cs * 10 + d := by
    intro cs d hd
    simp [digitsValue, (digitOf_spec d hd).1]
  induction n using Text.decimalInduction with
  | small n hn =>
    rw [Text.decimalDigits_of_lt hn, ← List.nil_append [_], hconcat [] n hn]
    simp [digitsValue]
  | step n hn ih =>
    rw [Text.decimalDigits_of_ge hn, hconcat _ _ (Nat.mod_lt _ (by decide)), ih]
    omega

/-- **The digits of a number are read up to what is no digit and no point**, if there are not too many of them. -/
theorem readToken_decimalDigits (n : Nat) (hdigit : isDigit c = false) (hpoint : c ≠ '.') :
    readToken (Text.decimalDigits n ++ c :: rest) =
      if Text.maxDigits < (Text.decimalDigits n).length then
        some (.tooLong (Text.decimalDigits n).length, c :: rest)
      else some (.integer n, c :: rest) := by
  have hall : ∀ d ∈ Text.decimalDigits n, isDigit d = true := by
    intro d hd
    obtain ⟨k, hk, rfl⟩ := Text.exists_of_mem_decimalDigits hd
    exact isDigit_digitOf hk
  have hread : readNumber false (Text.decimalDigits n ++ c :: rest) =
      if Text.maxDigits < (Text.decimalDigits n).length then
        some (.tooLong (Text.decimalDigits n).length, c :: rest)
      else some (.integer n, c :: rest) := by
    unfold readNumber
    simp only [List.takeWhile_append_of_pos hall, List.dropWhile_append_of_pos hall, List.takeWhile_cons, hdigit,
      List.dropWhile_cons, Bool.false_eq_true, ↓reduceIte, List.append_nil, Text.decimalDigits_ne_nil,
      digitsValue_decimalDigits]
    split
    · rename_i heq
      exact absurd (List.cons.inj heq).1 hpoint
    · rfl
  cases hdigits : Text.decimalDigits n with
  | nil => exact absurd hdigits (Text.decimalDigits_ne_nil n)
  | cons d digits =>
    obtain ⟨k, hk, rfl⟩ := Text.exists_of_mem_decimalDigits (show d ∈ Text.decimalDigits n by simp [hdigits])
    obtain ⟨-, hblank, hmark, hname⟩ := digitOf_spec k hk
    rw [hdigits] at hread
    rw [← hread, List.cons_append, readToken_of_not_mark hblank hmark, hname, isDigit_digitOf hk]
    rfl

/-! ## Quoted names -/

/-- A character inside single quotes: a quote and a backslash stand behind a backslash. -/
def escapedChar (c : Char) : List Char := if c = '\'' ∨ c = '\\' then ['\\', c] else [c]

theorem readQuoted_escaped (done cs rest : List Char) :
    readQuoted '\'' done (cs.flatMap escapedChar ++ '\'' :: rest) =
      some (String.ofList (done.reverse ++ cs), rest) := by
  induction cs generalizing done with
  | nil => simp [readQuoted]
  | cons c cs ih =>
    have hnext : readQuoted '\'' done (escapedChar c ++ (cs.flatMap escapedChar ++ '\'' :: rest)) =
        readQuoted '\'' (c :: done) (cs.flatMap escapedChar ++ '\'' :: rest) := by
      unfold escapedChar
      split
      · rename_i h
        rcases h with rfl | rfl <;> rfl
      · rename_i h
        rw [not_or] at h
        rw [List.singleton_append, readQuoted]
        · rw [if_neg h.1, if_neg h.2]
        · intro d after heq
          exact absurd heq h.2
    rw [List.flatMap_cons, List.append_assoc, hnext, ih, List.reverse_cons, List.append_assoc]
    rfl

/-- **A name in single quotes is read as itself.** -/
theorem readToken_quotedName (name : String) (rest : List Char) :
    readToken ('\'' :: (name.toList.flatMap escapedChar ++ '\'' :: rest)) = some (.quoted name, rest) := by
  rw [readToken, sortKey?_of_not_blank (by decide) (by decide) (by decide)]
  simp only [readWordToken, readQuoted_escaped]
  simp

end Schemata.Query

import Schemata.Json.Reader
import Schemata.Json.Writer

/-!
# Written strings are read back

- Four hexadecimal digits are read as the unit they show (`readUnit_hexDigits`), and an escaped code point, one unit
  or a pair, as its character (`readString_escapedUnits`).
- Each character of a written string is read as itself (`readString_stringChar`), hence each string
  (`readString_stringText`). A string in ASCII alone has to be followed by something, since the digits of an escape
  are only read when a character follows.
- A written string is a value (`readScalar_stringText`), and before a colon a name (`readName_stringText`).
- A string written in ASCII alone has printable characters only (`isPlainAscii_stringText`); what is above `U+FFFF`
  stands there as a pair (`exists_pair_stringChar`).
-/

namespace Schemata.Json

/-! ## Hexadecimal digits -/

theorem hexValue?_hexDigit : ∀ d < 16, hexValue? (hexDigit d) = some d := by decide

theorem hexDigits_four (n : Nat) :
    Text.hexDigits 4 n =
      [hexDigit (n / 4096 % 16), hexDigit (n / 256 % 16), hexDigit (n / 16 % 16), hexDigit (n % 16)] := by
  simp [Text.hexDigits]

theorem hexNumber?_hexDigits {n : Nat} (h : n < 0x10000) : hexNumber? (Text.hexDigits 4 n) = some n := by
  have hd : ∀ d, hexValue? (hexDigit (d % 16)) = some (d % 16) := fun d =>
    hexValue?_hexDigit _ (Nat.mod_lt _ (by decide))
  simp only [hexDigits_four, hexNumber?, List.foldl_cons, List.foldl_nil, Option.bind_some, Option.map_some, hd]
  congr 1
  omega

theorem readUnit_hexDigits {n : Nat} (h : n < 0x10000) (c : Char) (rest : List Char) :
    readUnit (Text.hexDigits 4 n ++ c :: rest) = some (some n, c :: rest) := by
  have hn := hexNumber?_hexDigits h
  rw [hexDigits_four] at hn ⊢
  simp only [List.cons_append, List.nil_append, readUnit, hn]

/-! ## Escapes -/

variable {opening done : List Char}

/-- A unit that is no half of a pair is read as its character. -/
theorem readEscapedUnit_unit {n : Nat} (h : n < 0x10000) (hh : isHighHalf n = false) (hl : isLowHalf n = false)
    (c : Char) (rest : List Char) :
    readEscapedUnit (Text.hexDigits 4 n ++ c :: rest) = .ok (Char.ofNat n, c :: rest) := by
  rw [readEscapedUnit, readUnit_hexDigits h]
  simp [hh, hl, charOfUnit]

/-- Two units that are the halves of a pair are read as one character. -/
theorem readEscapedUnit_pair {high low : Nat} (hh : isHighHalf high = true) (hl : isLowHalf low = true) (c : Char)
    (rest : List Char) :
    readEscapedUnit (Text.hexDigits 4 high ++ escapedUnit low ++ c :: rest) = .ok (charOfPair high low, c :: rest) := by
  have hhigh : high < 0x10000 := by simp [isHighHalf] at hh; omega
  have hlow : low < 0x10000 := by simp [isLowHalf] at hl; omega
  rw [readEscapedUnit, escapedUnit, List.append_assoc, List.cons_append, List.cons_append, readUnit_hexDigits hhigh]
  simp only [hh]
  rw [readUnit_hexDigits hlow]
  simp [hl]

/-- A code point that characters have is no half of a pair. -/
theorem not_half (c : Char) : isHighHalf c.toNat = false ∧ isLowHalf c.toNat = false := by
  have h := c.valid
  simp only [UInt32.isValidChar, Nat.isValidChar] at h
  simp only [isHighHalf, isLowHalf, Char.toNat, Bool.and_eq_false_iff, decide_eq_false_iff_not]
  omega

theorem readString_of_readEscapedUnit {cs rest : List Char} {c : Char} (h : readEscapedUnit cs = .ok (c, rest)) :
    readString opening done ('\\' :: 'u' :: cs) = readString opening (c :: done) rest := by
  rw [readString]
  split
  · rename_i stop h'
    rw [h] at h'
    cases h'
  · rename_i c' rest' h'
    rw [h] at h'
    cases h'
    rfl

/-- A character above `U+FFFF` is escaped as the halves of its pair. -/
theorem exists_pair {c : Char} (h : 0x10000 ≤ c.toNat) : ∃ high low, isHighHalf high = true ∧ isLowHalf low = true ∧
    charOfPair high low = c ∧ escapedUnits c.toNat = escapedUnit high ++ escapedUnit low := by
  have hc : c.toNat < 0x110000 := by
    have := c.valid
    simp only [UInt32.isValidChar, Nat.isValidChar] at this
    simp only [Char.toNat]
    omega
  refine ⟨0xd800 + (c.toNat - 0x10000) / 0x400, 0xdc00 + (c.toNat - 0x10000) % 0x400, ?_, ?_, ?_, if_neg (by omega)⟩
  · simp only [isHighHalf, Bool.and_eq_true, decide_eq_true_eq]
    omega
  · simp only [isLowHalf, Bool.and_eq_true, decide_eq_true_eq]
    omega
  · have : 0x10000 + (0xd800 + (c.toNat - 0x10000) / 0x400 - 0xd800) * 0x400 +
        (0xdc00 + (c.toNat - 0x10000) % 0x400 - 0xdc00) = c.toNat := by omega
    rw [charOfPair, this, Char.ofNat_toNat]

/-- **An escaped code point is read as its character.** -/
theorem readString_escapedUnits (c next : Char) (rest : List Char) :
    readString opening done (escapedUnits c.toNat ++ next :: rest) = readString opening (c :: done) (next :: rest) := by
  by_cases h : c.toNat < 0x10000
  · obtain ⟨hh, hl⟩ := not_half c
    have hunit := readEscapedUnit_unit h hh hl next rest
    rw [Char.ofNat_toNat] at hunit
    rw [escapedUnits, if_pos h]
    exact readString_of_readEscapedUnit hunit
  · obtain ⟨high, low, hhigh, hlow, hpair, hunits⟩ := exists_pair (Nat.not_lt.1 h)
    have hread := readEscapedUnit_pair hhigh hlow next rest
    rw [hpair] at hread
    rw [hunits]
    exact readString_of_readEscapedUnit hread

/-! ## Strings -/

/-- A backslash before a letter that it escapes. -/
theorem readString_unescaped {letter c : Char} (hu : letter ≠ 'u') (h : unescaped? letter = some c) (rest : List Char) :
    readString opening done ('\\' :: letter :: rest) = readString opening (c :: done) rest := by
  rw [readString]
  · rw [h]
  · exact hu

/-- **A written character is read as itself.** -/
theorem readString_stringChar (asciiOnly : Bool) (c next : Char) (rest : List Char) :
    readString opening done (stringChar asciiOnly c ++ next :: rest) =
      readString opening (c :: done) (next :: rest) := by
  unfold stringChar
  split
  · rename_i h
    rcases h with rfl | rfl <;> exact readString_unescaped (by decide) rfl _
  split
  · rename_i h
    subst h
    exact readString_unescaped (by decide) rfl _
  split
  · rename_i h
    subst h
    exact readString_unescaped (by decide) rfl _
  split
  · rename_i h
    subst h
    exact readString_unescaped (by decide) rfl _
  split
  · rename_i h
    subst h
    exact readString_unescaped (by decide) rfl _
  split
  · rename_i h
    subst h
    exact readString_unescaped (by decide) rfl _
  split
  · rename_i h
    have hunits : escapedUnits c.toNat = escapedUnit c.toNat := if_pos (by omega)
    rw [← hunits]
    exact readString_escapedUnits c next rest
  split
  · exact readString_escapedUnits c next rest
  · rename_i hq _ _ _ _ _ hcontrol _
    rw [not_or] at hq
    rw [List.cons_append, List.nil_append, readString]
    · rw [if_neg hcontrol]
    all_goals grind

/-- A written string is read as itself. -/
theorem readString_stringText (asciiOnly : Bool) (cs : List Char) (rest : List Char) :
    readString opening done (cs.flatMap (stringChar asciiOnly) ++ '"' :: rest) =
      .ok (String.ofList (done.reverse ++ cs), rest) := by
  induction cs generalizing done with
  | nil => simp [readString]
  | cons c cs ih =>
    rw [List.flatMap_cons, List.append_assoc]
    cases hnext : cs.flatMap (stringChar asciiOnly) ++ '"' :: rest with
    | nil => simp at hnext
    | cons next after =>
      rw [readString_stringChar, ← hnext, ih]
      simp

/-! ## Values and names -/

theorem stringText_append (asciiOnly : Bool) (s : String) (rest : List Char) :
    stringText asciiOnly s ++ rest = '"' :: (s.toList.flatMap (stringChar asciiOnly) ++ '"' :: rest) := by
  simp [stringText]

theorem readScalar_stringText (asciiOnly : Bool) (s : String) (rest : List Char) :
    readScalar (stringText asciiOnly s ++ rest) = .ok (.string s, rest) := by
  rw [stringText_append, readScalar, readString_stringText]
  simp [Except.map]

/-- A written string before a colon is read as a name. -/
theorem readName_stringText (asciiOnly : Bool) (s : String) (rest : List Char) :
    readName (stringText asciiOnly s ++ ':' :: rest) = .ok (s, rest) := by
  rw [stringText_append, readName, readString_stringText]
  simp [skipBlanks, isBlank]

/-! ## Written in printable ASCII -/

/-- A printable character of ASCII. -/
def IsPlainAscii (c : Char) : Prop := 0x20 ≤ c.toNat ∧ c.toNat < 0x7f

instance (c : Char) : Decidable (IsPlainAscii c) := inferInstanceAs (Decidable (_ ∧ _))

theorem isPlainAscii_of_all {cs : List Char} (h : cs.all fun c => IsPlainAscii c) : ∀ c ∈ cs, IsPlainAscii c :=
  fun c hc => of_decide_eq_true (List.all_eq_true.1 h c hc)

theorem isPlainAscii_hexDigit : ∀ d < 16, IsPlainAscii (hexDigit d) := by decide

theorem isPlainAscii_escapedUnit (n : Nat) : ∀ c ∈ escapedUnit n, IsPlainAscii c := by
  have hdigit : ∀ d, IsPlainAscii (hexDigit (d % 16)) := fun d =>
    isPlainAscii_hexDigit _ (Nat.mod_lt _ (by decide))
  simp only [escapedUnit, hexDigits_four, List.forall_mem_cons, List.not_mem_nil, false_imp_iff, implies_true, and_true]
  exact ⟨by decide, by decide, hdigit _, hdigit _, hdigit _, hdigit _⟩

theorem isPlainAscii_escapedUnits (n : Nat) : ∀ c ∈ escapedUnits n, IsPlainAscii c := by
  intro c hc
  unfold escapedUnits at hc
  split at hc
  · exact isPlainAscii_escapedUnit _ c hc
  · rcases List.mem_append.1 hc with hc | hc <;> exact isPlainAscii_escapedUnit _ c hc

/-- What is no printable ASCII is escaped. -/
theorem isPlainAscii_stringChar (c : Char) : ∀ x ∈ stringChar true c, IsPlainAscii x := by
  unfold stringChar
  split
  · rename_i h
    rcases h with rfl | rfl <;> exact isPlainAscii_of_all (by decide)
  iterate 5
    split
    · exact isPlainAscii_of_all (by decide)
  split
  · exact isPlainAscii_escapedUnit _
  split
  · exact isPlainAscii_escapedUnits _
  · rename_i hcontrol hascii
    intro x hx
    rw [List.mem_singleton.1 hx, IsPlainAscii]
    simp only [true_and] at hascii
    omega

/-- What is above `U+FFFF` is escaped as a pair. -/
theorem exists_pair_stringChar {c : Char} (h : 0x10000 ≤ c.toNat) : ∃ high low, isHighHalf high = true ∧
    isLowHalf low = true ∧ charOfPair high low = c ∧ stringChar true c = escapedUnit high ++ escapedUnit low := by
  have hne : ∀ d : Char, d.toNat < 0x10000 → c ≠ d := by
    rintro d hd rfl
    omega
  obtain ⟨high, low, hhigh, hlow, hpair, hunits⟩ := exists_pair h
  refine ⟨high, low, hhigh, hlow, hpair, ?_⟩
  rw [stringChar, if_neg (not_or.2 ⟨hne _ (by decide), hne _ (by decide)⟩), if_neg (hne _ (by decide)),
    if_neg (hne _ (by decide)), if_neg (hne _ (by decide)), if_neg (hne _ (by decide)), if_neg (hne _ (by decide)),
    if_neg (by omega), if_pos ⟨rfl, by omega⟩, hunits]

theorem isPlainAscii_stringText (s : String) : ∀ c ∈ stringText true s, IsPlainAscii c := by
  intro c hc
  simp only [stringText, List.cons_append, List.mem_cons, List.mem_append, List.mem_flatMap, List.not_mem_nil,
    or_false] at hc
  rcases hc with rfl | ⟨d, -, hc⟩ | rfl
  · decide
  · exact isPlainAscii_stringChar d c hc
  · decide

end Schemata.Json

import Schemata.Text.Lower

/-!
# Small letters stay as they are

The small forms of a run of capitals are no capitals of any run (`not_holds_smallForm`, checked run against run), so
that a small form is its own small form (`smallForm_smallForm`). Every character that `lower` writes is small, those
that stand for the dotted capital I and the two forms of the sigma included, and a text of small characters has no
capital sigma whose place could matter: it is its own text in small letters (`lower_eq_self`), and `lower` is
idempotent (`lower_lower`).
-/

namespace Schemata.Text

/-! ## Runs of capitals -/

theorem CaseSpan.holds_iff {s : CaseSpan} {n : Nat} :
    s.holds n = true ↔ s.first ≤ n ∧ n ≤ s.last ∧ (n - s.first) % s.stride = 0 := by
  simp [CaseSpan.holds, and_assoc]

/-- The small form of the first capital. -/
def CaseSpan.smallFirst (s : CaseSpan) : Nat := (s.first + s.shift).toNat

/-- The small form of the last capital. -/
def CaseSpan.smallLast (s : CaseSpan) : Nat := (s.last + s.shift).toNat

/-- Whether the small forms of the first run lie before the second run or behind it, or fall between its capitals, both
runs going by twos. In operations on naturals that the kernel computes. -/
def CaseSpan.apart (s t : CaseSpan) : Bool :=
  s.smallLast.blt t.first || t.last.blt s.smallFirst ||
    (t.stride.beq 2 && (s.stride.beq 2 || s.first.beq s.last) && Nat.blt 0 s.smallFirst &&
      Nat.beq ((s.smallFirst + t.first) % 2) 1)

theorem CaseSpan.apart_iff {s t : CaseSpan} :
    s.apart t = true ↔ s.smallLast < t.first ∨ t.last < s.smallFirst ∨
      t.stride = 2 ∧ (s.stride = 2 ∨ s.first = s.last) ∧ 0 < s.smallFirst ∧ (s.smallFirst + t.first) % 2 = 1 := by
  simp [CaseSpan.apart, Nat.blt_eq, and_assoc, or_assoc]

/-- Runs that are apart: no small form of the first one is a capital of the second one. -/
theorem CaseSpan.not_holds_of_apart {s t : CaseSpan} (h : s.apart t = true) {n : Nat} (hn : s.holds n = true) :
    t.holds (n + s.shift).toNat = false := by
  obtain ⟨hfirst, hlast, hstride⟩ := CaseSpan.holds_iff.1 hn
  rw [Bool.eq_false_iff]
  intro ht
  obtain ⟨htfirst, htlast, htstride⟩ := CaseSpan.holds_iff.1 ht
  have hsmall := CaseSpan.apart_iff.1 h
  simp only [CaseSpan.smallFirst, CaseSpan.smallLast] at hsmall
  rcases hsmall with hbefore | hbehind | ⟨htwo, halone, hpos, hodd⟩
  · omega
  · omega
  · rw [htwo] at htstride
    rcases halone with htwo' | halone
    · rw [htwo'] at hstride
      omega
    · omega

/-- The dotted capital I, as a run of its own. -/
def dottedSpan : CaseSpan := ⟨0x130, 0x130, 1, 0⟩

/-- All runs are apart from all runs. -/
theorem caseSpans_apart : (caseSpans.all fun s => (dottedSpan :: caseSpans).all s.apart) = true := by decide +kernel

/-- **No small form of a run is a capital of a run**, nor the dotted one. -/
theorem not_holds_smallForm {s t : CaseSpan} (hs : s ∈ caseSpans) (ht : t ∈ dottedSpan :: caseSpans) {n : Nat}
    (hn : s.holds n = true) : t.holds (n + s.shift).toNat = false := by
  have hall := caseSpans_apart
  rw [List.all_eq_true] at hall
  have hrun := hall s hs
  rw [List.all_eq_true] at hrun
  exact CaseSpan.not_holds_of_apart (hrun t ht) hn

/-! ## Small forms of code points -/

theorem smallForm_of_holds {n : Nat} {s : CaseSpan} (h : caseSpans.find? (·.holds n) = some s) :
    smallForm n = (n + s.shift).toNat := by
  rw [smallForm, h]

theorem smallForm_of_none {n : Nat} (h : caseSpans.find? (·.holds n) = none) : smallForm n = n := by
  rw [smallForm, h]

/-- **A small form is its own small form.** -/
theorem smallForm_smallForm (n : Nat) : smallForm (smallForm n) = smallForm n := by
  cases h : caseSpans.find? (·.holds n) with
  | none => rw [smallForm_of_none h, smallForm_of_none h]
  | some s =>
    have hs := List.mem_of_find?_eq_some h
    have hn := List.find?_some h
    rw [smallForm_of_holds h]
    apply smallForm_of_none
    rw [List.find?_eq_none]
    intro t ht
    rw [not_holds_smallForm hs (List.mem_cons_of_mem _ ht) hn]
    exact Bool.false_ne_true

/-- No other code point has the dotted capital I as its small form. -/
theorem eq_of_smallForm_eq_dotted {n : Nat} (h : smallForm n = 0x130) : n = 0x130 := by
  cases hfind : caseSpans.find? (·.holds n) with
  | none => rwa [smallForm_of_none hfind] at h
  | some s =>
    have hs := List.mem_of_find?_eq_some hfind
    have hn := List.find?_some hfind
    have hnot := not_holds_smallForm hs (t := dottedSpan) List.mem_cons_self hn
    rw [← smallForm_of_holds hfind, h] at hnot
    cases hnot

/-! ## Small characters -/

/-- The character is no capital. -/
structure IsSmall (c : Char) : Prop where
  form : smallForm c.toNat = c.toNat
  not_dotted : c ≠ 'İ'

theorem isSmall_sigma : IsSmall 'σ' := ⟨by decide +kernel, by decide⟩

theorem isSmall_finalSigma : IsSmall 'ς' := ⟨by decide +kernel, by decide⟩

theorem isSmall_i : IsSmall 'i' := ⟨by decide +kernel, by decide⟩

theorem isSmall_dot : IsSmall '\u0307' := ⟨by decide +kernel, by decide⟩

theorem toNat_ofNat_of_isValidChar {n : Nat} (h : n.isValidChar) : (Char.ofNat n).toNat = n := by
  rw [Char.ofNat, dif_pos h]
  rfl

theorem isSmall_ofNat {c : Char} (hc : c ≠ 'İ') : IsSmall (Char.ofNat (smallForm c.toNat)) := by
  by_cases hvalid : (smallForm c.toNat).isValidChar
  · have htoNat := toNat_ofNat_of_isValidChar hvalid
    refine ⟨?_, ?_⟩
    · rw [htoNat, smallForm_smallForm]
    · intro hdotted
      rw [hdotted] at htoNat
      have hcode : c.toNat = 0x130 := eq_of_smallForm_eq_dotted htoNat.symm
      apply hc
      rw [← Char.ofNat_toNat c, hcode]
  · have hzero : Char.ofNat (smallForm c.toNat) = '\x00' := dif_neg hvalid
    rw [hzero]
    exact ⟨by decide +kernel, by decide⟩

/-- **What is written for a character is small.** -/
theorem isSmall_of_mem_lowerChar {before after : List Char} {c small : Char} (h : small ∈ lowerChar before c after) :
    IsSmall small := by
  unfold lowerChar at h
  split at h
  · rw [List.mem_singleton] at h
    subst h
    split
    · exact isSmall_finalSigma
    · exact isSmall_sigma
  split at h
  · simp only [List.mem_cons, List.not_mem_nil, or_false] at h
    rcases h with rfl | rfl
    · exact isSmall_i
    · exact isSmall_dot
  · rename_i hdotted
    rw [List.mem_singleton] at h
    subst h
    exact isSmall_ofNat hdotted

/-- A small character stays as it is. -/
theorem lowerChar_of_isSmall {c : Char} (h : IsSmall c) (before after : List Char) :
    lowerChar before c after = [c] := by
  have hsigma : c ≠ 'Σ' := by
    rintro rfl
    exact absurd h.form (by decide +kernel)
  rw [lowerChar, if_neg hsigma, if_neg h.not_dotted, h.form, Char.ofNat_toNat]

/-! ## Texts -/

theorem isSmall_of_mem_lowerOnto {done before cs : List Char} (hdone : ∀ c ∈ done, IsSmall c) {small : Char}
    (h : small ∈ lowerOnto done before cs) : IsSmall small := by
  induction cs generalizing done before with
  | nil =>
    rw [lowerOnto, List.mem_reverse] at h
    exact hdone small h
  | cons c after ih =>
    rw [lowerOnto] at h
    apply ih _ h
    intro c' hc'
    rw [List.mem_append, List.mem_reverse] at hc'
    rcases hc' with hc' | hc'
    · exact isSmall_of_mem_lowerChar hc'
    · exact hdone c' hc'

theorem lowerOnto_of_isSmall {cs : List Char} (h : ∀ c ∈ cs, IsSmall c) (done before : List Char) :
    lowerOnto done before cs = done.reverse ++ cs := by
  induction cs generalizing done before with
  | nil => rw [lowerOnto, List.append_nil]
  | cons c after ih =>
    obtain ⟨hc, hafter⟩ := List.forall_mem_cons.1 h
    rw [lowerOnto, lowerChar_of_isSmall hc, ih hafter]
    simp

theorem isSmall_of_mem_lower {text : String} {c : Char} (h : c ∈ (lower text).toList) : IsSmall c := by
  rw [lower, String.toList_ofList] at h
  exact isSmall_of_mem_lowerOnto (by simp) h

/-- **A text of small characters is its own text in small letters.** -/
theorem lower_eq_self {text : String} (h : ∀ c ∈ text.toList, IsSmall c) : lower text = text := by
  rw [lower, lowerOnto_of_isSmall h]
  simp

/-- **A text in small letters stays as it is.** -/
@[simp]
theorem lower_lower (text : String) : lower (lower text) = lower text := by
  apply lower_eq_self
  intro c hc
  exact isSmall_of_mem_lower hc

example : lower "ΟΔΟΣ İΣ" = "οδος i̇ς" ∧ lower "οδος i̇ς" = "οδος i̇ς" := by decide +kernel

end Schemata.Text

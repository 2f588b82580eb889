import Schemata.Json.Text
import Schemata.Proofs.Json.Numbers
import Schemata.Proofs.Json.Steps

/-!
# How reading a text ends

Every reader leaves a rest of the text, and stops at a rest of it or at a whole number of too many digits that stands
in it (`Within`). This is kept from the parts of a string up to the loop over a document (`within_read`). So a text is
read as a value, or is malformed at a place of it, or holds more digits in a row than an integer may have
(`Ends`, `ends_parseText`); and an integer of so many digits does end the reading (`parseText_of_long`). All this is
said of calls with room for every container; another call reads as they do or stops at a container without room
(`parseText_eq_or_tooDeep`).
-/

namespace Schemata.Json

/-- So many digits stand in a row in the text, and they are too many for an integer. -/
def HasLongRun (text : List Char) (count : Nat) : Prop :=
  Text.maxDigits < count ∧ ∃ digits, digits <:+: text ∧ digits.length = count ∧ ∀ c ∈ digits, isDigit c = true

/-- What reading in a text comes to: it leaves a rest of the text, or stops at a rest of it or at too many digits. -/
inductive Within (text : List Char) {α : Type} : Except Stop (α × List Char) → Prop
  | leaves (a : α) {rest : List Char} (hrest : rest <:+ text) : Within text (.ok (a, rest))
  | fault (cause : Fault) {rest : List Char} (hrest : rest <:+ text) : Within text (.error (.fault cause rest))
  | tooManyDigits {count : Nat} (hrun : HasLongRun text count) : Within text (.error (.tooManyDigits count))

variable {text cs rest : List Char}

theorem Within.suffix {α : Type} {a : α} {result : Except Stop (α × List Char)} (h : Within text result)
    (heq : result = .ok (a, rest)) : rest <:+ text := by
  cases h with
  | leaves a' hrest =>
    cases heq
    exact hrest
  | fault => cases heq
  | tooManyDigits => cases heq

/-- A stop is the same whatever was to be read. -/
theorem Within.stop {α β : Type} {stop : Stop} {result : Except Stop (α × List Char)} (h : Within text result)
    (heq : result = .error stop) : Within text (.error stop : Except Stop (β × List Char)) := by
  cases h with
  | leaves => cases heq
  | fault cause hrest =>
    cases heq
    exact .fault cause hrest
  | tooManyDigits hrun =>
    cases heq
    exact .tooManyDigits hrun

/-! ## Rests -/

theorem suffix_of_cons {c : Char} (h : c :: cs <:+ text) : cs <:+ text := (List.suffix_cons c cs).trans h

theorem skipBlanks_suffix (h : cs <:+ text) : skipBlanks cs <:+ text := (List.dropWhile_suffix isBlank).trans h

theorem suffix_of_skipBlanks {c : Char} (h : cs <:+ text) (heq : skipBlanks cs = c :: rest) : rest <:+ text :=
  suffix_of_cons (heq ▸ skipBlanks_suffix h)

theorem suffix_of_readUnit {n : Option Nat} (h : readUnit cs = some (n, rest)) : rest <:+ cs := by
  unfold readUnit at h
  split at h
  · cases h
    exact ⟨[_, _, _, _], rfl⟩
  · cases h

theorem spanDigits_suffix (cs : List Char) : (spanDigits cs).2 <:+ cs := List.dropWhile_suffix isDigit

theorem spanWhole_suffix (cs : List Char) : (spanWhole cs).2 <:+ cs := by
  unfold spanWhole
  split
  · exact List.suffix_cons ..
  · exact spanDigits_suffix cs

theorem spanFraction_suffix (cs : List Char) : (spanFraction cs).2 <:+ cs := by
  unfold spanFraction
  split
  · split
    · exact List.suffix_refl _
    · exact (spanDigits_suffix _).trans (List.suffix_cons ..)
  · exact List.suffix_refl _

theorem spanExponent_suffix (cs : List Char) : (spanExponent cs).2 <:+ cs := by
  unfold spanExponent
  split
  · rename_i e tail
    split
    · split
      rename_i negative after heq
      have hafter : after <:+ tail := by
        split at heq
        · cases heq
          exact List.suffix_cons ..
        · cases heq
          exact List.suffix_cons ..
        · cases heq
          exact List.suffix_refl _
      dsimp only
      split
      · exact List.suffix_refl _
      · exact (spanDigits_suffix after).trans (hafter.trans (List.suffix_cons ..))
    · exact List.suffix_refl _
  · exact List.suffix_refl _

/-- A whole part is a run of digits. -/
theorem spanWhole_run (cs : List Char) : (spanWhole cs).1 <:+: cs ∧ ∀ c ∈ (spanWhole cs).1, isDigit c = true := by
  unfold spanWhole
  split
  · exact ⟨⟨[], _, rfl⟩, by simp [isDigit]⟩
  · exact ⟨(List.takeWhile_prefix isDigit).isInfix, List.all_eq_true.1 List.all_takeWhile⟩

/-! ## Strings -/

theorem within_readEscapedUnit (h : 'u' :: cs <:+ text) : Within text (readEscapedUnit cs) := by
  have hcs := suffix_of_cons h
  unfold readEscapedUnit
  split
  · rename_i unit rest hunit
    have hrest := (suffix_of_readUnit hunit).trans hcs
    split
    · rename_i more _
      split
      · rename_i low after hlow
        have hafter := (suffix_of_readUnit hlow).trans (suffix_of_cons (suffix_of_cons hrest))
        split
        · exact .leaves _ hafter
        · exact .leaves _ hrest
      · exact .fault _ (suffix_of_cons hrest)
      · exact .leaves _ hrest
    · exact .leaves _ hrest
  · exact .fault _ h

theorem within_readString {opening : List Char} (hopening : opening <:+ text) (done : List Char) (h : cs <:+ text) :
    Within text (readString opening done cs) := by
  fun_induction readString opening done cs with
  | case1 => exact .fault _ hopening
  | case2 done rest => exact .leaves _ (suffix_of_cons h)
  | case3 => exact .fault _ hopening
  | case4 done rest stop hunit => exact (within_readEscapedUnit (suffix_of_cons h)).stop hunit
  | case5 done rest c after hunit ih => exact ih ((within_readEscapedUnit (suffix_of_cons h)).suffix hunit)
  | case6 done c rest _ e _ ih => exact ih (suffix_of_cons (suffix_of_cons h))
  | case7 => exact .fault _ h
  | case8 => exact .fault _ h
  | case9 =>
    rename_i ih
    exact ih (suffix_of_cons h)

theorem within_readName (h : cs <:+ text) : Within text (readName cs) := by
  unfold readName
  split
  · rename_i tail
    have hname := within_readString h [] (suffix_of_cons h)
    split
    · rename_i stop hstop
      exact hname.stop hstop
    · rename_i name after hafter
      have hrest := hname.suffix hafter
      split
      · rename_i rest hcolon
        exact .leaves _ (suffix_of_skipBlanks hrest hcolon)
      · exact .fault _ (skipBlanks_suffix hrest)
  · exact .fault _ h

/-! ## Scalars -/

theorem within_readUnsigned {negative : Bool} {result : Except Stop (Value × List Char)} (h : cs <:+ text)
    (hread : readUnsigned negative cs = some result) : Within text result := by
  have hrest : (spanExponent (spanFraction (spanWhole cs).2).2).2 <:+ text :=
    (spanExponent_suffix _).trans ((spanFraction_suffix _).trans ((spanWhole_suffix cs).trans h))
  unfold readUnsigned at hread
  simp only at hread
  split at hread
  · cases hread
  · split at hread
    · split at hread
      · rename_i hlong
        cases hread
        obtain ⟨hplace, hdigits⟩ := spanWhole_run cs
        exact .tooManyDigits ⟨hlong, _, hplace.trans h.isInfix, rfl, hdigits⟩
      · cases hread
        exact .leaves _ hrest
    · cases hread
      exact .leaves _ hrest

theorem within_readScalar (h : cs <:+ text) : Within text (readScalar cs) := by
  unfold readScalar
  split
  · rename_i tail
    have hstring := within_readString h [] (suffix_of_cons h)
    cases hread : readString ('"' :: tail) [] tail with
    | error stop => exact hstring.stop hread
    | ok r => exact .leaves _ (hstring.suffix hread)
  · split
    · rename_i r hliteral
      obtain ⟨l, -, rfl⟩ := Option.map_eq_some_iff.1 hliteral
      exact .leaves _ ((List.drop_suffix ..).trans h)
    · cases hnumber : readNumber cs with
      | none => exact .fault _ h
      | some result =>
        unfold readNumber at hnumber
        split at hnumber
        · exact within_readUnsigned (suffix_of_cons h) hnumber
        · exact within_readUnsigned h hnumber

/-! ## Documents -/

/-- **Reading on keeps within the text**, where there is room for every container. -/
theorem within_read (stack : List Frame) (turn : Turn) (h : cs <:+ text) :
    Within text (read .unlimited stack turn cs) := by
  -- the cases of `expect`: an array, an object, a scalar; then those of `place`: the end, an array, an object
  fun_induction read .unlimited stack turn cs with
  | case1 stack cs tail hopen _ rest hclose ih => exact ih (suffix_of_skipBlanks (suffix_of_skipBlanks h hopen) hclose)
  | case2 stack cs tail hopen _ _ ih => exact ih (skipBlanks_suffix (suffix_of_skipBlanks h hopen))
  | case3 stack cs tail hopen hroom => exact absurd rfl hroom
  | case4 stack cs tail hopen _ rest hclose ih => exact ih (suffix_of_skipBlanks (suffix_of_skipBlanks h hopen) hclose)
  | case5 stack cs tail hopen _ stop _ hname =>
    exact (within_readName (skipBlanks_suffix (suffix_of_skipBlanks h hopen))).stop hname
  | case6 stack cs tail hopen _ name rest _ hname ih =>
    exact ih ((within_readName (skipBlanks_suffix (suffix_of_skipBlanks h hopen))).suffix hname)
  | case7 stack cs tail hopen hroom => exact absurd rfl hroom
  | case8 stack cs stop _ _ hscalar => exact (within_readScalar (skipBlanks_suffix h)).stop hscalar
  | case9 stack cs v rest _ _ hscalar ih => exact ih ((within_readScalar (skipBlanks_suffix h)).suffix hscalar)
  | case10 => exact .leaves _ h
  | case11 cs v before stack rest hclose ih => exact ih (suffix_of_skipBlanks h hclose)
  | case12 cs v before stack rest hcomma ih => exact ih (suffix_of_skipBlanks h hcomma)
  | case13 => exact .fault _ (skipBlanks_suffix h)
  | case14 cs v before name stack rest hclose ih => exact ih (suffix_of_skipBlanks h hclose)
  | case15 cs v before name stack tail hcomma stop hname =>
    exact (within_readName (skipBlanks_suffix (suffix_of_skipBlanks h hcomma))).stop hname
  | case16 cs v before name stack tail hcomma next rest hname ih =>
    exact ih ((within_readName (skipBlanks_suffix (suffix_of_skipBlanks h hcomma))).suffix hname)
  | case17 => exact .fault _ (skipBlanks_suffix h)

/-- **Limited room only cuts reading short**: at a container without room, and else it goes as where there is room for
every container. -/
theorem read_eq_or_tooDeep (room : Room) (stack : List Frame) (turn : Turn) (cs : List Char) :
    read room stack turn cs = read .unlimited stack turn cs ∨
      ∃ container, read room stack turn cs = .error (.tooDeep container) := by
  -- The two part only where an array or an object begins for which there is no room.
  fun_induction read room stack turn cs with
  | case3 => exact .inr ⟨.array, rfl⟩
  | case7 => exact .inr ⟨.object, rfl⟩
  | _ => grind [read, Room.holds]

/-- How an operation on a text ends: with a value, or because the text is malformed at a place of it, or because it
holds an integer of too many digits. -/
inductive Ends {α : Type} (text : String) : Except ParseFailure α → Prop
  | value (a : α) : Ends text (.ok a)
  | malformed (cause : Fault) {position : Nat} (hposition : position ≤ text.toList.length) :
    Ends text (.error (.malformed cause position))
  | tooManyDigits {count : Nat} (hrun : HasLongRun text.toList count) : Ends text (.error (.tooManyDigits count))

/-- **Reading a text ends** with a document, at a fault of the text or at too many digits in it. -/
theorem ends_parseText (text : String) : Ends text (parseText text) := by
  have hread := within_read [] .expect (List.suffix_refl text.toList)
  unfold parseText parse
  simp only
  generalize read .unlimited [] .expect text.toList = result at hread ⊢
  by_cases hmark : text.toList.head? = some '\ufeff'
  · rw [if_pos hmark]
    exact .malformed .byteOrderMark (Nat.zero_le _)
  · rw [if_neg hmark]
    cases hread with
    | @leaves v rest hrest =>
      simp only
      cases skipBlanks rest with
      | nil => exact .value v
      | cons => exact .malformed .extra (Nat.sub_le ..)
    | fault cause hrest => exact .malformed cause (Nat.sub_le ..)
    | tooManyDigits hrun => exact .tooManyDigits hrun

/-- **Limited room only cuts the reading of a text short**: what is said of reading where there is room for every
container holds of every call that has room for those of the text. -/
theorem parseText_eq_or_tooDeep (text : String) (room : Room) :
    parseText text room = parseText text ∨ ∃ container, parseText text room = .error (.tooDeep container) := by
  unfold parseText parse
  by_cases hmark : text.toList.head? = some '\ufeff'
  · simp only [if_pos hmark, true_or]
  · simp only [if_neg hmark]
    rcases read_eq_or_tooDeep room [] .expect text.toList with hread | ⟨container, hread⟩
    · rw [hread]
      exact .inl rfl
    · rw [hread]
      exact .inr ⟨container, rfl⟩

/-- What is made of the document ends as the reading does. -/
theorem Ends.map {α β : Type} {text : String} {result : Except ParseFailure α} (h : Ends text result) (f : α → β) :
    Ends text (result.map f) := by
  cases h with
  | value a => exact .value (f a)
  | malformed cause hposition => exact .malformed cause hposition
  | tooManyDigits hrun => exact .tooManyDigits hrun

/-! ## Integers that are too long -/

/-- **An integer of too many digits ends the reading.** -/
theorem parseText_of_long {n : Int} (hn : 10 ^ Text.maxDigits ≤ n.natAbs) :
    parseText (Text.ofInt n) = .error (.tooManyDigits (Text.decimalDigits n.natAbs).length) := by
  have hlong : Text.maxDigits < (Text.decimalDigits n.natAbs).length := Text.lt_length_decimalDigits hn
  have hscalar := readScalar_integer n endsNumber_nil
  rw [List.append_nil, if_pos hlong] at hscalar
  obtain ⟨c, cs, hdigits, hc⟩ : ∃ c cs, Text.decimalInt n = c :: cs ∧ (isDigit c = true ∨ c = '-') := by
    cases n with
    | ofNat n =>
      obtain ⟨c, cs, hdigits, hc⟩ := exists_cons_decimalDigits n
      exact ⟨c, cs, hdigits, .inl hc⟩
    | negSucc n => exact ⟨'-', _, rfl, .inr rfl⟩
  have hne : ∀ a, isDigit a = false → a ≠ '-' → c ≠ a := by
    rintro a ha hminus rfl
    rcases hc with hc | hc
    · rw [ha] at hc
      cases hc
    · exact hminus hc
  have hblank : isBlank c = false := by
    simp [isBlank, hne ' ' rfl (by decide), hne '\t' rfl (by decide), hne '\n' rfl (by decide),
      hne '\r' rfl (by decide)]
  have hread : read .unlimited [] .expect (c :: cs) = _ :=
    read_expect hblank (hne '[' rfl (by decide)) (hne '\x7b' rfl (by decide))
  rw [hdigits] at hscalar
  rw [hscalar] at hread
  have hmark : ¬(c :: cs).head? = some '\ufeff' := by
    rw [List.head?_cons, Option.some.injEq]
    exact hne _ rfl (by decide)
  simp only [parseText, parse, Text.ofInt, String.toList_ofList, hdigits, hmark, ↓reduceIte, hread]

end Schemata.Json

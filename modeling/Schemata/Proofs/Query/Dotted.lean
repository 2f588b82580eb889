import Schemata.Proofs.Json.Stops
import Schemata.Proofs.Query.Definite
import Schemata.Report

/-!
# Dotted paths, and how operations on texts end

A dotted path has names with points between them, behind the mark of the document or behind a first name
(`IsDotted`). Its words are the mark, points and names, reserved names among them (`Token.IsDotted`). On such words each
reader of the grammar gives a path that cannot be blocked, or stops before one of them (`Sound`), so a dotted path is
malformed or has values in every document (`ofText_dotted`). With what is known of reading a text, every operation on a
text ends in one of few ways (`text_operations_end`): the only failure that is not told in a report is an integer of too
many digits in the text.
-/

namespace Schemata.Query

open Json (Value)

/-! ## Words of dotted paths -/

/-- A word of a dotted path. -/
inductive Token.IsDotted : Token → Prop
  | root : IsDotted .root
  | dot : IsDotted .dot
  | word (name : String) : IsDotted (.word name)
  | having : IsDotted .having
  | lacking : IsDotted .lacking

/-- Names with points between them, behind the mark of the document or a first name. -/
inductive IsDotted : String → Prop
  | ofRoot {names : List (List Char)} (hnames : ∀ name ∈ names, IsName name) :
    IsDotted (String.ofList ('$' :: names.flatMap ('.' :: ·)))
  | ofName {first : List Char} {names : List (List Char)} (hfirst : IsName first)
    (hnames : ∀ name ∈ names, IsName name) : IsDotted (String.ofList (first ++ names.flatMap ('.' :: ·)))

theorem isDotted_wordToken (name : String) : (wordToken name).IsDotted := by
  unfold wordToken
  split
  · exact .having
  · split
    · exact .lacking
    · exact .word name

theorem wordToken_ne_tooLong (name : String) (digits : Nat) : wordToken name ≠ .tooLong digits := by
  intro heq
  have hdotted := isDotted_wordToken name
  rw [heq] at hdotted
  cases hdotted

variable {names : List (List Char)} {rest : List Char}

/-- A name is a word, up to what cannot go on with it. -/
theorem tokens_name {cs : List Char} (hname : IsName cs) (hrest : ∀ c ∈ rest.head?, isNamePart c = false) :
    tokens (cs ++ rest) = wordToken (String.ofList cs) :: tokens rest := by
  have hread := readToken_name hname hrest
  obtain ⟨⟨c, tail, rfl, hc⟩, -⟩ := hname
  rw [List.cons_append] at hread ⊢
  exact tokens_cons (isBlank_of_textBlank (textBlank_of_isNameStart hc)) hread (wordToken_ne_tooLong _)

/-- A point is a word, unless another point follows. -/
theorem tokens_dot {c : Char} (hc : c ≠ '.') : tokens ('.' :: c :: rest) = .dot :: tokens (c :: rest) := by
  have hread : readToken ('.' :: c :: rest) = some (.dot, c :: rest) := by
    rw [readToken, sortKey?_of_not_blank (by decide) (by decide) (by decide)]
    simp only
    rw [readWordToken]
    intro tail heq
    exact hc (List.cons.inj heq).1
  exact tokens_cons rfl hread (by simp)

theorem head?_flatMap_dot : ∀ c ∈ (names.flatMap ('.' :: ·)).head?, isNamePart c = false := by
  cases names with
  | nil => simp
  | cons name names => simp [isNamePart, isNameStart, Json.isDigit]

theorem isDotted_of_mem_tokens_names (hnames : ∀ name ∈ names, IsName name) :
    ∀ t ∈ tokens (names.flatMap ('.' :: ·)), t.IsDotted := by
  induction names with
  | nil => simp [tokens_nil]
  | cons name names ih =>
    obtain ⟨hname, hothers⟩ := List.forall_mem_cons.1 hnames
    have hword : tokens (name ++ names.flatMap ('.' :: ·)) = _ := tokens_name hname head?_flatMap_dot
    obtain ⟨⟨c, tail, rfl, hc⟩, -⟩ := hname
    have hpoint : c ≠ '.' := by
      rintro rfl
      cases hc
    rw [List.flatMap_cons, List.cons_append, List.cons_append, tokens_dot hpoint, ← List.cons_append, hword]
    simp only [List.forall_mem_cons]
    exact ⟨.dot, isDotted_wordToken _, ih hothers⟩

/-- **The words of a dotted path** are the mark of the document, points and names. -/
theorem IsDotted.tokens {path : String} (h : IsDotted path) : ∀ t ∈ tokens path.toList, t.IsDotted := by
  cases h with
  | ofRoot hnames =>
    rw [String.toList_ofList, tokens_cons rfl rfl (by simp), List.forall_mem_cons]
    exact ⟨.root, isDotted_of_mem_tokens_names hnames⟩
  | ofName hfirst hnames =>
    rw [String.toList_ofList, tokens_name hfirst head?_flatMap_dot, List.forall_mem_cons]
    exact ⟨isDotted_wordToken _, isDotted_of_mem_tokens_names hnames⟩

/-! ## Reading dotted words -/

/-- What reading dotted words comes to: a path that cannot be blocked and the dotted words behind it, or a stop before
one of them or at their end. -/
inductive Sound : Reading (Path × List Token) → Prop
  | reads {path : Path} {rest : List Token} (hpath : path.mayBeBlocked = false) (hrest : ∀ t ∈ rest, t.IsDotted) :
    Sound (.ok (path, rest))
  | stops {token : Option Token} (htoken : ∀ t ∈ token, t.IsDotted) : Sound (.error token)

theorem Sound.bind {reading : Reading (Path × List Token)} {next : Path × List Token → Reading (Path × List Token)}
    (h : Sound reading)
    (hnext : ∀ path rest, path.mayBeBlocked = false → (∀ t ∈ rest, t.IsDotted) → Sound (next (path, rest))) :
    Sound (reading >>= next) := by
  cases h with
  | reads hpath hrest => exact hnext _ _ hpath hrest
  | stops htoken => exact .stops htoken

variable {tokens : List Token}

theorem sound_stopAt (h : ∀ t ∈ tokens, t.IsDotted) : Sound (stopAt tokens) :=
  .stops fun t ht => h t (List.mem_of_mem_head? ht)

/-- No comma follows a dotted word. -/
theorem readNames_dotted (done : List String) (h : ∀ t ∈ tokens, t.IsDotted) :
    readNames done tokens = .ok (done.reverse, tokens) := by
  cases tokens with
  | nil => rfl
  | cons t rest =>
    have ht := h t (List.mem_cons_self ..)
    cases ht <;> rfl

theorem sound_readSingle (fuel : Nat) (h : ∀ t ∈ tokens, t.IsDotted) : Sound (readSingle fuel tokens) := by
  cases fuel with
  | zero => exact .stops (by simp)
  | succ fuel =>
    cases tokens with
    | nil => exact .stops (by simp)
    | cons t rest =>
      obtain ⟨ht, hrest⟩ := List.forall_mem_cons.1 h
      cases ht with
      | root => exact .reads rfl hrest
      | dot => exact sound_stopAt h
      | word name =>
        rw [readSingle, readNames_dotted [name] hrest]
        exact .reads rfl hrest
      | having => exact sound_stopAt h
      | lacking => exact sound_stopAt h

theorem mayBeBlocked_join (link : Link) {first second : Path} (hfirst : first.mayBeBlocked = false)
    (hsecond : second.mayBeBlocked = false) : (link.join first second).mayBeBlocked = false := by
  cases link <;> exact Bool.or_eq_false_iff.2 ⟨hfirst, hsecond⟩

theorem sound_readTighter (fuel : Nat) (before : Link) {path : Path} (hpath : path.mayBeBlocked = false)
    (h : ∀ t ∈ tokens, t.IsDotted) : Sound (readTighter fuel before path tokens) := by
  induction fuel generalizing before path tokens with
  | zero => exact .stops (by simp)
  | succ fuel ih =>
    cases tokens with
    | nil => exact .reads hpath h
    | cons t rest =>
      have hrest := (List.forall_mem_cons.1 h).2
      rw [readTighter]
      split
      · rename_i link _
        split
        · refine (sound_readSingle fuel hrest).bind fun next rest hnext hrest => ?_
          refine (ih link hnext hrest).bind fun next rest hnext hrest => ?_
          exact ih before (mayBeBlocked_join link hpath hnext) hrest
        · exact .reads hpath h
      · exact .reads hpath h

theorem sound_readOn (fuel : Nat) {path : Path} (hpath : path.mayBeBlocked = false) (h : ∀ t ∈ tokens, t.IsDotted) :
    Sound (readOn fuel path tokens) := by
  induction fuel generalizing path tokens with
  | zero => exact .stops (by simp)
  | succ fuel ih =>
    have hlink : ∀ (link : Link) {rest : List Token}, (∀ t ∈ rest, t.IsDotted) →
        Sound (readSingle fuel rest >>= fun single => readTighter fuel link single.1 single.2 >>= fun next =>
          readOn fuel (link.join path next.1) next.2) := by
      intro link rest hrest
      refine (sound_readSingle fuel hrest).bind fun next rest hnext hrest => ?_
      refine (sound_readTighter fuel link hnext hrest).bind fun next rest hnext hrest => ?_
      exact ih (mayBeBlocked_join link hpath hnext) hrest
    cases tokens with
    | nil => exact .reads hpath h
    | cons t rest =>
      obtain ⟨ht, hrest⟩ := List.forall_mem_cons.1 h
      cases ht with
      | root => exact .reads hpath h
      | dot => exact hlink .child hrest
      | word name => exact .reads hpath h
      | having => exact hlink .having hrest
      | lacking => exact hlink .lacking hrest

theorem sound_readPath (fuel : Nat) (h : ∀ t ∈ tokens, t.IsDotted) : Sound (readPath fuel tokens) := by
  cases fuel with
  | zero => exact .stops (by simp)
  | succ fuel => exact (sound_readSingle fuel h).bind fun _ _ hpath hrest => sound_readOn fuel hpath hrest

theorem Misread.ofToken_dotted {t : Token} (h : t.IsDotted) : Misread.ofToken (some t) = .malformed := by
  cases h <;> rfl

/-- **A dotted path is malformed, or a path that cannot be blocked.** -/
theorem ofText_dotted {text : String} (h : IsDotted text) :
    Path.ofText text = .error .malformed ∨ ∃ path, Path.ofText text = .ok path ∧ path.mayBeBlocked = false := by
  have hread := sound_readPath (16 * ((Query.tokens text.toList).length + 1)) h.tokens
  unfold Path.ofText
  simp only
  generalize readPath _ _ = reading at hread
  cases hread with
  | @reads path rest hpath hrest =>
    cases rest with
    | nil => exact .inr ⟨path, rfl, hpath⟩
    | cons t rest => exact .inl (congrArg Except.error (Misread.ofToken_dotted (hrest t (List.mem_cons_self ..))))
  | @stops token htoken =>
    cases token with
    | none => exact .inl rfl
    | some t => exact .inl (congrArg Except.error (Misread.ofToken_dotted (htoken t rfl)))

/-! ## Selecting by dotted paths -/

/-- What evaluating some of the paths comes to: a result, or the failure of one of them that is malformed or has no
match. -/
inductive Selects (paths : List String) {α : Type} : Except PathFailure α → Prop
  | value (a : α) : Selects paths (.ok a)
  | malformed {path : String} (h : path ∈ paths) : Selects paths (.error (.malformed path))
  | noMatch {path : String} (h : path ∈ paths) : Selects paths (.error (.noMatch path))

theorem Selects.bind {paths : List String} {α β : Type} {result : Except PathFailure α}
    {next : α → Except PathFailure β} (h : Selects paths result) (hnext : ∀ a, Selects paths (next a)) :
    Selects paths (result >>= next) := by
  cases h with
  | value a => exact hnext a
  | malformed h => exact .malformed h
  | noMatch h => exact .noMatch h

section Select

variable {paths : List String} (document : Value)

theorem selects_readOne {path : String} (hdotted : IsDotted path) (hmem : path ∈ paths) :
    Selects paths (readOne document (.string path)) := by
  rcases ofText_dotted hdotted with hmalformed | ⟨read, hread, hopen⟩
  · simp only [readOne, hmalformed]
    exact .malformed hmem
  · obtain ⟨values, hvalues⟩ := Path.exists_values hopen document
    have hgives := gives_readOne hread hvalues
    generalize readOne document (.string path) = result at hgives ⊢
    cases hgives with
    | all => exact .value _
    | only => exact .value _
    | nothing => exact .noMatch hmem

theorem selects_readAll {some : List String} (h : ∀ path ∈ some, IsDotted path ∧ path ∈ paths) :
    Selects paths (readAll document (some.map .string)) := by
  induction some with
  | nil => exact .value []
  | cons path rest ih =>
    obtain ⟨⟨hdotted, hmem⟩, hrest⟩ := List.forall_mem_cons.1 h
    exact (selects_readOne document hdotted hmem).bind fun v => (ih hrest).bind fun vs => .value (v :: vs)

/-- **A selection by dotted paths** gives a result, or fails for one of them. -/
theorem selects_select {path : String} {others : List String} (h : ∀ p ∈ path :: others, IsDotted p)
    (toLower : Bool) : Selects (path :: others) (select toLower document (.string path) (others.map .string)) := by
  unfold select
  simp only
  generalize (if toLower then document.lowerKeys else document) = document
  split
  · exact selects_readOne document (h path (List.mem_cons_self ..)) (List.mem_cons_self ..)
  · have hall := selects_readAll document fun p hp => ⟨h p hp, hp⟩
    exact hall.bind fun values => .value (Value.array values)

end Select

/-! ## Operations on a text -/

/-- How a selection from a text ends: with a value, or as the reading of the text does, or for one of the paths. -/
inductive SelectionEnds (text : String) (paths : List String) : Except TextFailure Value → Prop
  | value (v : Value) : SelectionEnds text paths (.ok v)
  | unread {failure : Json.ParseFailure} (h : Json.Ends text (.error failure : Except Json.ParseFailure Value)) :
    SelectionEnds text paths (.error (.unread failure))
  | malformed {path : String} (h : path ∈ paths) : SelectionEnds text paths (.error (.unselected (.malformed path)))
  | noMatch {path : String} (h : path ∈ paths) : SelectionEnds text paths (.error (.unselected (.noMatch path)))

theorem ends_elementCount (text : String) : Json.Ends text (Json.elementCount (.string text)) := by
  have hread := Json.ends_parseText text
  unfold Json.elementCount
  simp only
  generalize Json.parseText text = result at hread ⊢
  cases hread with
  | value v => cases v <;> exact .value _
  | malformed cause hposition => exact .malformed cause hposition
  | tooManyDigits hrun => exact .tooManyDigits hrun

theorem selectionEnds_selectText {path : String} {others : List String} (h : ∀ p ∈ path :: others, IsDotted p)
    (toLower : Bool) (text : String) :
    SelectionEnds text (path :: others) (selectText toLower (.string text) (.string path) (others.map .string)) := by
  have hread := Json.ends_parseText text
  unfold selectText
  simp only [Json.parseValue]
  cases hresult : Json.parseText text with
  | ok document =>
    have hselects := selects_select document h toLower
    simp only
    generalize select toLower document (.string path) (others.map .string) = result at hselects
    cases hselects with
    | value v => exact .value v
    | malformed h => exact .malformed h
    | noMatch h => exact .noMatch h
  | error failure =>
    rw [hresult] at hread
    exact .unread hread

section Short

variable {text : String} (hshort : ∀ count, ¬Json.HasLongRun text.toList count)

include hshort

/-- Where a text has no long run of digits, the failure to read it is told in a report. -/
theorem report_of_ends {failure : Json.ParseFailure}
    (h : Json.Ends text (.error failure : Except Json.ParseFailure Value)) :
    ∃ report, failure.report? = some report ∧ report.code = "PARSE_ERROR" := by
  cases h with
  | malformed cause hposition => exact ⟨_, rfl, rfl⟩
  | tooManyDigits hrun => exact absurd hrun (hshort _)

/-- Where a text has no long run of digits, the failure to select from it is told in a report. -/
theorem report_of_selectionEnds {paths : List String} {failure : TextFailure}
    (h : SelectionEnds text paths (.error failure)) : ∃ report, failure.report? = some report ∧
      (report.code = "PARSE_ERROR" ∨ report.code = "PATH_EVALUATION_ERROR") := by
  cases h with
  | unread h =>
    obtain ⟨report, hreport, hcode⟩ := report_of_ends hshort h
    exact ⟨report, hreport, .inl hcode⟩
  | malformed => exact ⟨_, rfl, .inr rfl⟩
  | noMatch => exact ⟨_, rfl, .inr rfl⟩

end Short

/-- **Operations on a text end in few ways.** Reading a text, with its names in small letters or without the named
fields, counting its elements and selecting from it by dotted paths give a value, or fail because the text is malformed
at a place of it, or because one of the paths is malformed or has no match, and tell that in a report of its kind. They
fail in no other way unless the text has more digits in a row than an integer may have; and on an integer of so many
digits all of them do. -/
theorem text_operations_end (text : String) (toLower : Bool) :
    Json.Ends text (Json.parseLowered toLower (.string text)) ∧
    Json.Ends text (Json.elementCount (.string text)) ∧
    (∀ names, Json.Ends text (Json.parseWithout names (.string text))) ∧
    (∀ (path : String) (others : List String), (∀ p ∈ path :: others, IsDotted p) →
      SelectionEnds text (path :: others) (selectText toLower (.string text) (.string path) (others.map .string))) ∧
    ((∀ count, ¬Json.HasLongRun text.toList count) →
      (∀ failure : Json.ParseFailure, Json.Ends text (.error failure : Except Json.ParseFailure Value) →
        ∃ report, failure.report? = some report ∧ report.code = "PARSE_ERROR") ∧
      ∀ (paths : List String) (failure : TextFailure), SelectionEnds text paths (.error failure) →
        ∃ report, failure.report? = some report ∧
          (report.code = "PARSE_ERROR" ∨ report.code = "PATH_EVALUATION_ERROR")) ∧
    ∀ n : Int, 10 ^ Text.maxDigits ≤ n.natAbs → text = Text.ofInt n → ∃ failure : Json.ParseFailure,
      failure = .tooManyDigits (Text.decimalDigits n.natAbs).length ∧
      Json.parseLowered toLower (.string text) = .error failure ∧
      Json.elementCount (.string text) = .error failure ∧
      (∀ names, Json.parseWithout names (.string text) = .error failure) ∧
      ∀ path others, selectText toLower (.string text) path others = .error (.unread failure) := by
  refine ⟨(Json.ends_parseText text).map _, ends_elementCount text, fun names => (Json.ends_parseText text).map _,
    fun path others h => selectionEnds_selectText h toLower text,
    fun hshort => ⟨fun failure => report_of_ends hshort, fun paths failure => report_of_selectionEnds hshort⟩, ?_⟩
  rintro n hn rfl
  have hlong := Json.parseText_of_long hn
  refine ⟨_, rfl, ?_, ?_, fun names => ?_, fun path others => ?_⟩
  · simp only [Json.parseLowered, Json.parseValue, hlong, Except.map]
  · simp only [Json.elementCount, hlong, bind, Except.bind]
  · simp only [Json.parseWithout, Json.parseValue, hlong, Except.map]
  · simp only [selectText, Json.parseValue, hlong]

namespace Sample

/-- The text of an object in an object. -/
def nestedText : String := "\x7b\"a\": \x7b\"b-1\": 1\x7d\x7d"

theorem isDotted_nestedPath : IsDotted "$.a.b-1" := by
  have hnames : ∀ name ∈ ["a".toList, "b-1".toList], IsName name := by
    intro name hname
    simp only [List.mem_cons, List.not_mem_nil, or_false] at hname
    rcases hname with rfl | rfl
    · exact ⟨⟨_, _, rfl, rfl⟩, List.all_eq_true.1 rfl⟩
    · exact ⟨⟨_, _, rfl, rfl⟩, List.all_eq_true.1 rfl⟩
  exact .ofRoot hnames

/-- A text of fewer digits than an integer may have has no long run of them. -/
theorem not_hasLongRun {text : List Char} (h : text.length ≤ Text.maxDigits) (count : Nat) :
    ¬Json.HasLongRun text count := by
  rintro ⟨hlong, digits, hplace, hlength, -⟩
  have := hplace.length_le
  omega

end Sample

/-- A selection from a text by the path `$.a.b-1`, a text that breaks off, and the least integer of too many digits. -/
theorem text_operations_end_nested : (∀ p ∈ ["$.a.b-1"], IsDotted p) ∧
    SelectionEnds Sample.nestedText ["$.a.b-1"] (selectText true (.string Sample.nestedText) (.string "$.a.b-1") []) ∧
    (∀ count, ¬Json.HasLongRun "[1".toList count) ∧
    (∀ failure, Json.parseLowered false (.string "[1") = .error failure →
      ∃ report, failure.report? = some report ∧ report.code = "PARSE_ERROR") ∧
    ∃ failure, Json.elementCount (.string (Text.ofInt (10 ^ Text.maxDigits : Nat))) = .error failure := by
  have hdotted : ∀ p ∈ ["$.a.b-1"], IsDotted p := by
    rintro p hp
    rw [List.mem_singleton.1 hp]
    exact Sample.isDotted_nestedPath
  have hshort : ∀ count, ¬Json.HasLongRun "[1".toList count := Sample.not_hasLongRun (by decide)
  obtain ⟨-, -, -, hselect, -, -⟩ := text_operations_end Sample.nestedText true
  obtain ⟨hends, -, -, -, hreport, -⟩ := text_operations_end "[1" false
  obtain ⟨-, -, -, -, -, hlong⟩ := text_operations_end (Text.ofInt (10 ^ Text.maxDigits : Nat)) false
  obtain ⟨failure, -, -, hcount, -⟩ := hlong _ (Nat.le_of_eq (Int.natAbs_natCast (10 ^ Text.maxDigits)).symm) rfl
  refine ⟨hdotted, hselect "$.a.b-1" [] hdotted, hshort, fun failure hfailure => ?_, failure, hcount⟩
  rw [hfailure] at hends
  exact (hreport hshort).1 failure hends

/-- **Not every text is read or malformed**: an integer of too many digits is neither. -/
theorem not_text_operations_end : ¬∀ text : String,
    (∃ v, Json.parseLowered false (.string text) = .ok v) ∨
      ∃ cause position, Json.parseLowered false (.string text) = .error (.malformed cause position) := by
  intro h
  obtain ⟨n, hn⟩ : ∃ n : Int, 10 ^ Text.maxDigits ≤ n.natAbs := ⟨_, Nat.le_of_eq (Int.natAbs_natCast _).symm⟩
  have hlong : Json.parseLowered false (.string (Text.ofInt n)) = _ :=
    congrArg (Except.map _) (Json.parseText_of_long hn)
  rcases h (Text.ofInt n) with ⟨v, hv⟩ | ⟨cause, position, hmalformed⟩
  · rw [hlong] at hv
    cases hv
  · rw [hlong] at hmalformed
    cases hmalformed

end Schemata.Query

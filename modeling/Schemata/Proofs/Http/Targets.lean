import Schemata.Http.Route
import Schemata.Proofs.Text.Decimal

/-!
# Where targets lead

The target of a path is cut at its slashes (`ofText_pathOf`, `ofText_segments_append`), and a segment without escapes
stands for itself (`decodeSegment_of_not_mem`), while any other keeps its first character (`exists_decodeSegment_cons`).
So the path of an `Address`, a schema's label in the default context or in a named one, leads to that schema: to the
list of its versions (`route_listing`), and to the version that a further segment names unless that segment is empty or
holds a brace (`route_version`).
-/

namespace Schemata.Http

/-! ## Segments -/

/-- A character that a segment can be written with. -/
def IsWritten (c : Char) : Prop := c ≠ '/' ∧ c ≠ '?' ∧ c ≠ '#'

/-- The path of segments. -/
def pathOf (segments : List (List Char)) : String := String.ofList (segments.flatMap ('/' :: ·))

section Segments

variable {segments : List (List Char)} {cs : List Char}

theorem splitOn_append {mark : Char} {rest : List Char} (h : mark ∉ cs) :
    Text.splitOn mark (cs ++ mark :: rest) = cs :: Text.splitOn mark rest := by
  induction cs with
  | nil => simp
  | cons c cs ih =>
    rw [List.mem_cons, not_or] at h
    rw [List.cons_append, Text.splitOn_cons (Ne.symm h.1), ih h.2]
    rfl

/-- A path is cut into its segments, behind an empty one, and what follows is cut on its own. -/
theorem splitOn_segments_append (h : ∀ segment ∈ segments, '/' ∉ segment) (rest : List Char) :
    Text.splitOn '/' (segments.flatMap ('/' :: ·) ++ '/' :: rest) = [] :: (segments ++ Text.splitOn '/' rest) := by
  induction segments with
  | nil => exact Text.splitOn_cons_self '/' rest
  | cons first others ih =>
    obtain ⟨hfirst, hothers⟩ := List.forall_mem_cons.1 h
    have hcut := ih hothers
    -- what follows the first segment starts with a slash, too
    cases others with
    | nil =>
      rw [List.flatMap_cons, List.flatMap_nil, List.append_nil, List.cons_append, Text.splitOn_cons_self,
        splitOn_append hfirst]
      rfl
    | cons second others =>
      rw [List.flatMap_cons, List.cons_append, List.cons_append, Text.splitOn_cons_self] at hcut
      rw [List.flatMap_cons, List.flatMap_cons, List.append_assoc, List.cons_append, List.cons_append,
        List.cons_append, Text.splitOn_cons_self, splitOn_append hfirst, List.tail_eq_of_cons_eq hcut]
      rfl

/-- What stands before a text without the mark is cut nowhere. -/
theorem cut_append {mark : Char} (h : mark ∉ cs) (rest : List Char) :
    Text.cut mark (cs ++ rest) = (cs ++ (Text.cut mark rest).1, (Text.cut mark rest).2) := by
  have hall : ∀ c ∈ cs, decide (c ≠ mark) = true := fun c hc => decide_eq_true fun heq => h (heq ▸ hc)
  rw [Text.cut, List.takeWhile_append_of_pos hall, List.dropWhile_append_of_pos hall, Text.cut]

/-- A text without a mark is not cut. -/
theorem cut_of_not_mem {mark : Char} (h : mark ∉ cs) : Text.cut mark cs = (cs, []) := by
  have hcut := cut_append h []
  simpa [Text.cut] using hcut

/-- **The target of a path that goes on** has its segments behind an empty one, and then those of what follows. -/
theorem ofText_segments_append (h : ∀ segment ∈ segments, ∀ c ∈ segment, IsWritten c) (rest : List Char) :
    Target.ofText (String.ofList (segments.flatMap ('/' :: ·) ++ '/' :: rest)) =
      ⟨"" :: (segments.map decodeSegment ++ (Target.ofText (String.ofList rest)).segments),
        (Target.ofText (String.ofList rest)).query⟩ := by
  have hmark : ∀ mark, mark ≠ '/' → (∀ segment ∈ segments, mark ∉ segment) →
      mark ∉ segments.flatMap ('/' :: ·) ++ ['/'] := by
    intro mark hslash hsegments hmem
    rcases List.mem_append.1 hmem with hmem | hmem
    · obtain ⟨segment, hsegment, hmem⟩ := List.mem_flatMap.1 hmem
      rcases List.mem_cons.1 hmem with heq | hmem
      · exact hslash heq
      · exact hsegments segment hsegment hmem
    · exact hslash (List.mem_singleton.1 hmem)
  have hhash := hmark '#' (by decide) fun segment hsegment hmem => (h segment hsegment '#' hmem).2.2 rfl
  have hquestion := hmark '?' (by decide) fun segment hsegment hmem => (h segment hsegment '?' hmem).2.1 rfl
  have hslash : ∀ segment ∈ segments, '/' ∉ segment := fun segment hsegment hmem => (h segment hsegment '/' hmem).1 rfl
  have hempty : decodeSegment [] = "" := by
    rw [decodeSegment, decodeOnto]
    rfl
  have hfront : segments.flatMap ('/' :: ·) ++ '/' :: rest = segments.flatMap ('/' :: ·) ++ ['/'] ++ rest := by simp
  rw [hfront]
  simp only [Target.ofText, String.toList_ofList, cut_append hhash, cut_append hquestion]
  rw [List.append_assoc, List.singleton_append, splitOn_segments_append hslash, List.map_cons, List.map_append, hempty]

/-- **The target of a path** has its segments behind an empty one, and no query. -/
theorem ofText_pathOf (h : ∀ segment ∈ segments, ∀ c ∈ segment, IsWritten c) (hne : segments ≠ []) :
    Target.ofText (pathOf segments) = ⟨"" :: segments.map decodeSegment, []⟩ := by
  obtain ⟨init, last, rfl⟩ := (List.eq_nil_or_concat segments).resolve_left hne
  have hlast : ∀ c ∈ last, IsWritten c := h last (by simp)
  have htarget : Target.ofText (String.ofList last) = ⟨[decodeSegment last], []⟩ := by
    simp only [Target.ofText, String.toList_ofList]
    rw [cut_of_not_mem fun hc => (hlast '#' hc).2.2 rfl]
    simp only
    rw [cut_of_not_mem fun hc => (hlast '?' hc).2.1 rfl]
    simp only [Text.splitOn_of_not_mem fun hc => (hlast '/' hc).1 rfl, List.map_cons, List.map_nil, List.isEmpty_nil,
      ↓reduceIte]
  rw [pathOf, List.concat_eq_append, List.flatMap_append, List.flatMap_cons, List.flatMap_nil, List.append_nil,
    ofText_segments_append (fun segment hsegment => h segment (by simp [hsegment])), htarget, List.map_append]
  rfl

/-- A segment ends where the text ends or a character follows that none is written with. -/
theorem exists_segments_append {segment rest : List Char} (hsegment : ∀ c ∈ segment, IsWritten c)
    (hrest : ∀ c ∈ rest.head?, ¬IsWritten c) :
    ∃ others, (Target.ofText (String.ofList (segment ++ rest))).segments = decodeSegment segment :: others := by
  have hhash : '#' ∉ segment := fun hc => (hsegment '#' hc).2.2 rfl
  have hquestion : '?' ∉ segment := fun hc => (hsegment '?' hc).2.1 rfl
  have hslash : '/' ∉ segment := fun hc => (hsegment '/' hc).1 rfl
  simp only [Target.ofText, String.toList_ofList, cut_append hhash, cut_append hquestion]
  have hpath : (Text.cut '?' (Text.cut '#' rest).1).1 = [] ∨
      ∃ path, (Text.cut '?' (Text.cut '#' rest).1).1 = '/' :: path := by
    cases rest with
    | nil => exact .inl rfl
    | cons c rest =>
      have hc : c = '/' ∨ c = '?' ∨ c = '#' := by
        have hnot := hrest c rfl
        grind [IsWritten]
      rcases hc with rfl | rfl | rfl
      · exact .inr ⟨_, rfl⟩
      · exact .inl rfl
      · exact .inl rfl
  rcases hpath with hpath | ⟨path, hpath⟩
  · rw [hpath, List.append_nil, Text.splitOn_of_not_mem hslash]
    exact ⟨[], rfl⟩
  · rw [hpath, splitOn_append hslash]
    exact ⟨_, rfl⟩

/-! ## Segments without escapes -/

theorem decodeOnto_of_not_mem (done : List Char) (h : '%' ∉ cs) : decodeOnto done [] cs = done.reverse ++ cs := by
  induction cs generalizing done with
  | nil =>
    rw [decodeOnto, List.append_nil]
    rfl
  | cons c cs ih =>
    rw [List.mem_cons, not_or] at h
    rw [decodeOnto]
    · rw [show writtenOnto done [] = done from rfl, ih _ h.2]
      simp
    · rintro high low rest rfl -
      exact h.1 rfl

theorem slashes_of_not_mem (h : '%' ∉ cs) : slashes cs = cs := by
  induction cs with
  | nil => rfl
  | cons c cs ih =>
    rw [List.mem_cons, not_or] at h
    rw [slashes]
    · rw [ih h.2]
    · rintro rest rfl -
      exact h.1 rfl

theorem percents_of_not_mem (h : '%' ∉ cs) : percents cs = cs := by
  induction cs with
  | nil => rfl
  | cons c cs ih =>
    rw [List.mem_cons, not_or] at h
    rw [percents]
    · rw [ih h.2]
    · rintro rest rfl -
      exact h.1 rfl

/-- A segment without escapes stands for itself. -/
theorem decodeSegment_of_not_mem (h : '%' ∉ cs) : decodeSegment cs = String.ofList cs := by
  rw [decodeSegment, decodeOnto_of_not_mem [] h, List.reverse_nil, List.nil_append, slashes_of_not_mem h,
    percents_of_not_mem h]

/-! ### First characters -/

theorem suffix_writtenOnto (done : List Char) (escapes : List Digits) : done <:+ writtenOnto done escapes := by
  induction escapes generalizing done with
  | nil => exact List.suffix_rfl
  | cons escape rest ih => exact (List.suffix_append ['%', escape.1, escape.2].reverse done).trans (ih _)

theorem suffix_charOnto (done : List Char) (c : Char) : done <:+ charOnto done c := by
  unfold charOnto
  split
  · exact suffix_writtenOnto _ _
  · split
    · exact suffix_writtenOnto _ _
    · exact List.suffix_cons _ _

theorem suffix_withEscape (done : List Char) (held : List Digits) (escape : Digits) :
    done <:+ (withEscape done held escape).1 := by
  have hheld := suffix_writtenOnto done held
  unfold withEscape
  split
  · exact suffix_charOnto _ _
  · exact List.suffix_rfl
  all_goals
    simp only
    split
    · exact hheld.trans (suffix_charOnto _ _)
    · exact hheld
    · exact hheld.trans (suffix_writtenOnto _ _)
    · exact hheld.trans (suffix_writtenOnto _ _)

/-- Characters that were read stay in front of all others. -/
theorem prefix_decodeOnto (done : List Char) (held : List Digits) (cs : List Char) :
    done.reverse <+: decodeOnto done held cs := by
  fun_induction decodeOnto done held cs with
  | case1 done held => exact (suffix_writtenOnto done held).reverse
  | case2 done held high low rest n hn next ih => exact (suffix_withEscape done held (high, low)).reverse.trans ih
  | case3 done held high low rest hn ih =>
    exact ((suffix_writtenOnto done held).trans (List.suffix_cons _ _)).reverse.trans ih
  | case4 done held c rest hne ih =>
    exact ((suffix_writtenOnto done held).trans (List.suffix_cons _ _)).reverse.trans ih

/-- **The first character of a segment** stays the first one, unless it starts an escape. -/
theorem exists_decodeSegment_cons {c : Char} (hc : c ≠ '%') (cs : List Char) :
    ∃ rest, decodeSegment (c :: cs) = String.ofList (c :: rest) := by
  have hfirst : [c] <+: decodeOnto [] [] (c :: cs) := by
    rw [decodeOnto]
    · exact prefix_decodeOnto [c] [] cs
    · exact fun _ _ _ h => absurd h hc
  obtain ⟨read, hread⟩ := hfirst
  refine ⟨percents (slashes read), ?_⟩
  rw [decodeSegment, ← hread, List.singleton_append, slashes, percents]
  · exact fun _ h => absurd h hc
  · exact fun _ h => absurd h hc

end Segments

/-! ## Plain words -/

/-- A letter, a digit, a hyphen or a low line; beyond ASCII, any character. -/
def isPlain (c : Char) : Bool := c.isAlphanum || c == '-' || c == '_' || 0x80 ≤ c.toNat

/-- A word of plain characters, which is written in paths as it is. -/
def IsPlainWord (word : String) : Prop := word.toList.all isPlain = true

instance (word : String) : Decidable (IsPlainWord word) := inferInstanceAs (Decidable (_ = _))

namespace IsPlainWord

variable {word : String} (h : IsPlainWord word)
include h

theorem isPlain {c : Char} (hc : c ∈ word.toList) : isPlain c = true := List.all_eq_true.1 h c hc

theorem isWritten {c : Char} (hc : c ∈ word.toList) : IsWritten c := by
  have hplain := h.isPlain hc
  refine ⟨?_, ?_, ?_⟩
  all_goals
    rintro rfl
    exact absurd hplain (by decide)

theorem decodeSegment_eq : decodeSegment word.toList = word := by
  have hpercent : '%' ∉ word.toList := fun hc => absurd (h.isPlain hc) (by decide)
  rw [decodeSegment_of_not_mem hpercent, String.ofList_toList]

theorem isName (hne : word ≠ "") : Route.isName word = true := by
  have hbraces : ∀ c ∈ word.toList, ¬(decide (c = '\x7b') || decide (c = '\x7d')) = true := by
    intro c hc hbrace
    rcases Bool.or_eq_true .. ▸ hbrace with hopen | hclose
    · exact absurd (h.isPlain hc) (of_decide_eq_true hopen ▸ by decide)
    · exact absurd (h.isPlain hc) (of_decide_eq_true hclose ▸ by decide)
  have hempty : word.isEmpty = false := by simpa using hne
  rw [Route.isName, String.any, String.contains_bool_eq, List.any_eq_false.2 hbraces, hempty]
  rfl

end IsPlainWord

/-- **The target behind plain words** has these before the segments of what follows. -/
theorem ofText_words {words : List String} (hwords : ∀ word ∈ words, IsPlainWord word) {text rest : String}
    (htext : text.toList = (words.map String.toList).flatMap ('/' :: ·) ++ '/' :: rest.toList) :
    Target.ofText text = ⟨"" :: (words ++ (Target.ofText rest).segments), (Target.ofText rest).query⟩ := by
  have hwritten : ∀ segment ∈ words.map String.toList, ∀ c ∈ segment, IsWritten c := by
    intro segment hsegment
    obtain ⟨word, hword, rfl⟩ := List.mem_map.1 hsegment
    exact fun c => (hwords word hword).isWritten
  have hdecode : (words.map String.toList).map decodeSegment = words := by
    rw [List.map_map]
    exact (List.map_congr_left fun word hword => (hwords word hword).decodeSegment_eq).trans (List.map_id words)
  rw [← String.ofList_toList (s := text), htext, ofText_segments_append hwritten, hdecode, String.ofList_toList]

/-! ## Addresses -/

/-- A name that is written in paths as it is. -/
structure PlainName where
  text : String
  nonempty : text ≠ ""
  plain : IsPlainWord text

theorem PlainName.isName (name : PlainName) : Route.isName name.text = true := name.plain.isName name.nonempty

/-- A schema as paths name it. -/
structure Address where
  /-- The context, if it is not the default one. -/
  context : Option PlainName
  label : PlainName

namespace Address

variable (address : Address)

/-- The words of the path to a schema. -/
def words : List String :=
  match address.context with
  | none => ["v1", "schemas", address.label.text]
  | some context => ["v1", "contexts", context.text, "schemas", address.label.text]

/-- A path below a schema. -/
def below (rest : List (List Char)) : String := pathOf (address.words.map String.toList ++ rest)

/-- The path of the list of versions. -/
def listing : String := address.below ["versions".toList]

/-- The path of a version, its number written so. -/
def version (number : List Char) : String := address.below ["versions".toList, number]

/-- The context as routes tell it. -/
def routeContext : Option String := address.context.map PlainName.text

theorem isPlainWord_of_mem_words : ∀ word ∈ address.words, IsPlainWord word := by
  have hwords : ∀ word ∈ ["v1", "contexts", "schemas"], IsPlainWord word := by decide
  unfold words
  cases address.context with
  | none =>
    simp only [List.forall_mem_cons, List.not_mem_nil, false_imp_iff, implies_true, and_true] at hwords ⊢
    exact ⟨hwords.1, hwords.2.2, address.label.plain⟩
  | some context =>
    simp only [List.forall_mem_cons, List.not_mem_nil, false_imp_iff, implies_true, and_true] at hwords ⊢
    exact ⟨hwords.1, hwords.2.1, context.plain, hwords.2.2, address.label.plain⟩

theorem words_ne_nil : address.words ≠ [] := by
  unfold words
  split <;> exact List.cons_ne_nil _ _

/-- What a path below a schema leads to. -/
theorem ofSegments?_below {rest : List (List Char)} (h : ∀ segment ∈ rest, ∀ c ∈ segment, IsWritten c) :
    Route.ofSegments? (Target.ofText (address.below rest)).segments =
      Route.below address.routeContext ("schemas" :: address.label.text :: rest.map decodeSegment) := by
  have hwritten : ∀ segment ∈ address.words.map String.toList ++ rest, ∀ c ∈ segment, IsWritten c := by
    intro segment hsegment
    rcases List.mem_append.1 hsegment with hmapped | hsegment
    · obtain ⟨word, hword, rfl⟩ := List.mem_map.1 hmapped
      exact fun c => (address.isPlainWord_of_mem_words word hword).isWritten
    · exact h segment hsegment
  have hne : address.words.map String.toList ++ rest ≠ [] := by
    simp [address.words_ne_nil]
  have hdecode : ∀ word ∈ address.words, (decodeSegment ∘ String.toList) word = id word := fun word hword =>
    (address.isPlainWord_of_mem_words word hword).decodeSegment_eq
  have hwords : (address.words.map String.toList).map decodeSegment = address.words := by
    rw [List.map_map, List.map_congr_left hdecode, List.map_id]
  rw [below, ofText_pathOf hwritten hne, List.map_append, hwords]
  unfold words routeContext
  cases address.context with
  | none => rfl
  | some context =>
    simp only [List.cons_append, List.nil_append, Route.ofSegments?, context.isName, ↓reduceIte]
    rfl

/-- **The path of the list of versions leads there.** -/
theorem route_listing :
    Route.ofSegments? (Target.ofText address.listing).segments =
      some (.versions address.routeContext address.label.text) := by
  have hversions : IsPlainWord "versions" := by decide
  rw [listing, ofSegments?_below]
  · simp only [List.map_cons, List.map_nil, hversions.decodeSegment_eq, Route.below, address.label.isName, ↓reduceIte]
  · rintro segment hsegment c hc
    rw [List.mem_singleton.1 hsegment] at hc
    exact hversions.isWritten hc

/-- **The path of a version leads there**, unless the segment that names the version is empty or holds a brace. -/
theorem route_version {number : List Char} (h : ∀ c ∈ number, IsWritten c) :
    Route.ofSegments? (Target.ofText (address.version number)).segments =
      if Route.isName (decodeSegment number) then
        some (.version address.routeContext address.label.text (decodeSegment number))
      else none := by
  have hversions : IsPlainWord "versions" := by decide
  rw [version, ofSegments?_below]
  · simp only [List.map_cons, List.map_nil, hversions.decodeSegment_eq, Route.below, address.label.isName,
      Bool.true_and]
  · simp only [List.forall_mem_cons, List.not_mem_nil, false_imp_iff, implies_true, and_true]
    exact ⟨fun c => hversions.isWritten, h⟩

end Address

end Schemata.Http

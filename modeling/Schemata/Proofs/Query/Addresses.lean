import Schemata.Proofs.Query.Definite

/-!
# Every node has an address

An address is the text of a path: `$` and then for each step a name in brackets and single quotes, or a place in
brackets. Its words are those of its steps (`tokens_address`), the grammar makes of them the path of single steps
(`ofText_address`), and that path leads to the node that the steps lead to, or to none (`find_andThen`). So a selection
at an address gives that node's value, or fails for lack of a match (`select_address`); only a place of too many digits
keeps an address from being read at all.
-/

namespace Schemata.Query

open Json (Value)

/-! ## Steps and addresses -/

/-- A step into a container. -/
inductive Step where
  | field (name : String)
  | element (place : Nat)
  deriving DecidableEq, Repr

/-- The part that a step leads to: a field of an object, or an element of an array. -/
def Step.part? : Step → Value → Option Value
  | .field name, .object fields => Json.field? name fields
  | .element place, .array elements => elements[place]?
  | _, _ => none

/-- The value that steps lead to. -/
def partAt? : List Step → Value → Option Value
  | [], v => some v
  | step :: rest, v => (step.part? v).bind (partAt? rest)

/-- A step as it is written. -/
def Step.written : Step → List Char
  | .field name => '[' :: '\'' :: (name.toList.flatMap escapedChar ++ ['\'', ']'])
  | .element place => '[' :: (Text.decimalDigits place ++ [']'])

/-- The path text of steps. -/
def address (steps : List Step) : String := String.ofList ('$' :: steps.flatMap Step.written)

/-- A step that is not too long to be read. -/
def Step.IsShort : Step → Prop
  | .field _ => True
  | .element place => place < 10 ^ Text.maxDigits

/-! ## Words of an address -/

/-- The words of a step. -/
def Step.words : Step → List Token
  | .field name => [.openBracket, .quoted name, .closeBracket]
  | .element place => [.openBracket, .integer place, .closeBracket]

theorem tokens_openBracket (rest : List Char) : tokens ('[' :: rest) = .openBracket :: tokens rest :=
  tokens_cons rfl rfl (by simp)

theorem tokens_closeBracket (rest : List Char) : tokens (']' :: rest) = .closeBracket :: tokens rest :=
  tokens_cons rfl rfl (by simp)

theorem tokens_decimalDigits (n : Nat) (rest : List Char) : tokens (Text.decimalDigits n ++ ']' :: rest) =
    if Text.maxDigits < (Text.decimalDigits n).length then [.tooLong (Text.decimalDigits n).length]
    else .integer n :: .closeBracket :: tokens rest := by
  have hread : readToken (Text.decimalDigits n ++ ']' :: rest) = _ := readToken_decimalDigits n (by decide) (by decide)
  cases hdigits : Text.decimalDigits n with
  | nil => exact absurd hdigits (Text.decimalDigits_ne_nil n)
  | cons d digits =>
    obtain ⟨k, hk, rfl⟩ := Text.exists_of_mem_decimalDigits (show d ∈ Text.decimalDigits n by simp [hdigits])
    have hblank := isBlank_of_textBlank (digitOf_spec k hk).2.1
    rw [hdigits, List.cons_append] at hread
    rw [List.cons_append]
    split at hread
    · rename_i hlong
      rw [if_pos hlong, tokens_tooLong hblank hread]
    · rename_i hlong
      rw [if_neg hlong, tokens_cons hblank hread (by simp), tokens_closeBracket]

theorem tokens_step {step : Step} (hshort : step.IsShort) (rest : List Char) :
    tokens (step.written ++ rest) = step.words ++ tokens rest := by
  cases step with
  | field name =>
    simp only [Step.written, Step.words, List.cons_append, List.append_assoc, List.nil_append]
    rw [tokens_openBracket, tokens_cons rfl (readToken_quotedName name (']' :: rest)) (by simp), tokens_closeBracket]
  | element place =>
    have hlength := Text.length_decimalDigits_le (k := Text.maxDigits) (by decide) hshort
    simp only [Step.written, Step.words, List.cons_append, List.append_assoc, List.nil_append]
    rw [tokens_openBracket, tokens_decimalDigits, if_neg (by omega)]

theorem tokens_steps {steps : List Step} (hshort : ∀ step ∈ steps, step.IsShort) (rest : List Char) :
    tokens (steps.flatMap Step.written ++ rest) = steps.flatMap Step.words ++ tokens rest := by
  induction steps with
  | nil => rfl
  | cons step steps ih =>
    obtain ⟨hstep, hsteps⟩ := List.forall_mem_cons.1 hshort
    rw [List.flatMap_cons, List.append_assoc, tokens_step hstep, ih hsteps, List.flatMap_cons, List.append_assoc]

/-- **The words of an address** and of what follows it. -/
theorem tokens_address {steps : List Step} (hshort : ∀ step ∈ steps, step.IsShort) (rest : List Char) :
    tokens ('$' :: (steps.flatMap Step.written ++ rest)) = .root :: (steps.flatMap Step.words ++ tokens rest) := by
  rw [tokens_cons rfl rfl (by simp), tokens_steps hshort]

/-! ## The path of an address -/

/-- The path of a step. -/
def Step.path : Step → Path
  | .field name => .fields [name]
  | .element place => .indices [place]

/-- A path and then the steps. -/
def Path.andThen (path : Path) (steps : List Step) : Path := steps.foldl (fun path step => .child path step.path) path

theorem readOn_step (step : Step) (fuel : Nat) (path : Path) (rest : List Token) :
    readOn (fuel + 2) path (step.words ++ rest) = readOn (fuel + 1) (.child path step.path) rest := by
  cases step with
  | field name => rfl
  | element place => rfl

/-- Reading goes on behind steps. -/
theorem readOn_steps (steps : List Step) (fuel : Nat) (path : Path) (rest : List Token) :
    readOn (steps.length + (fuel + 1)) path (steps.flatMap Step.words ++ rest) =
      readOn (fuel + 1) (path.andThen steps) rest := by
  induction steps generalizing path with
  | nil =>
    rw [List.length_nil, Nat.zero_add]
    rfl
  | cons step steps ih =>
    have hfuel : (step :: steps).length + (fuel + 1) = (steps.length + fuel) + 2 := by
      rw [List.length_cons]
      omega
    rw [hfuel, List.flatMap_cons, List.append_assoc, readOn_step]
    exact ih (.child path step.path)

theorem length_words (steps : List Step) : (steps.flatMap Step.words).length = 3 * steps.length := by
  induction steps with
  | nil => rfl
  | cons step steps ih =>
    rw [List.flatMap_cons, List.length_append, ih, List.length_cons]
    cases step with
    | field => simp only [Step.words, List.length_cons, List.length_nil]; omega
    | element => simp only [Step.words, List.length_cons, List.length_nil]; omega

/-- The grammar reads the steps of an address and goes on with at least two levels left. -/
theorem readPath_address (steps : List Step) (rest : List Token) : ∃ fuel,
    readPath (16 * ((.root :: (steps.flatMap Step.words ++ rest)).length + 1))
      (.root :: (steps.flatMap Step.words ++ rest)) = readOn (fuel + 2) (Path.root.andThen steps) rest := by
  have hlength : (.root :: (steps.flatMap Step.words ++ rest)).length = 3 * steps.length + rest.length + 1 := by
    rw [List.length_cons, List.length_append, length_words]
  refine ⟨47 * steps.length + 16 * rest.length + 29, ?_⟩
  have hfuel : 16 * ((.root :: (steps.flatMap Step.words ++ rest)).length + 1) =
      steps.length + (47 * steps.length + 16 * rest.length + 30 + 1) + 1 := by omega
  rw [hfuel, readPath]
  exact readOn_steps ..

/-- **The path of an address** whose places are not too long. -/
theorem ofText_address {steps : List Step} (hshort : ∀ step ∈ steps, step.IsShort) :
    Path.ofText (address steps) = .ok (Path.root.andThen steps) := by
  have hwords := tokens_address hshort []
  rw [List.append_nil, tokens_nil] at hwords
  obtain ⟨fuel, hread⟩ := readPath_address steps []
  simp only [Path.ofText, address, String.toList_ofList, hwords, hread, readOn]

/-- A place of too many digits breaks an address off. -/
theorem ofText_address_of_long {before after : List Step} {place : Nat} (hshort : ∀ step ∈ before, step.IsShort)
    (hlong : 10 ^ Text.maxDigits ≤ place) : ∃ count, Text.maxDigits < count ∧
      Path.ofText (address (before ++ .element place :: after)) = .error (.tooManyDigits count) := by
  have hlength : Text.maxDigits < (Text.decimalDigits place).length := Text.lt_length_decimalDigits hlong
  have hwords := tokens_address hshort ((Step.element place).written ++ after.flatMap Step.written)
  rw [Step.written, List.cons_append, tokens_openBracket, List.append_assoc, List.singleton_append,
    tokens_decimalDigits, if_pos hlength] at hwords
  obtain ⟨fuel, hread⟩ := readPath_address before [.openBracket, .tooLong (Text.decimalDigits place).length]
  refine ⟨(Text.decimalDigits place).length, hlength, ?_⟩
  have htext : (address (before ++ .element place :: after)).toList =
      '$' :: (before.flatMap Step.written ++
        '[' :: (Text.decimalDigits place ++ ']' :: after.flatMap Step.written)) := by
    simp [address, Step.written]
  rw [Path.ofText, htext, hwords, hread]
  rfl

/-! ## The node at an address -/

/-- The node that a step leads to. -/
def Step.next? : Step → Node → Option Node
  | .field name, n => n.field? name
  | .element place, n => n.element? place

/-- The node that steps lead to. -/
def nodeAt? : List Step → Node → Option Node
  | [], n => some n
  | step :: rest, n => (step.next? n).bind (nodeAt? rest)

theorem value_next? (step : Step) (n : Node) : (step.next? n).map Node.value = step.part? n.value := by
  obtain ⟨v, around⟩ := n
  cases step with
  | field name =>
    cases v with
    | object fields =>
      simp only [Step.next?, Node.field?, Step.part?, Option.map_map]
      exact Option.map_id'
    | _ => rfl
  | element place =>
    cases v with
    | array elements =>
      have hplace : ¬(place : Int) < 0 := by omega
      simp only [Step.next?, Node.element?, Step.part?, hplace, ↓reduceIte, Int.toNat_natCast, Option.map_map]
      exact Option.map_id'
    | _ => rfl

theorem value_nodeAt? (steps : List Step) (n : Node) : (nodeAt? steps n).map Node.value = partAt? steps n.value := by
  induction steps generalizing n with
  | nil => rfl
  | cons step rest ih =>
    rw [nodeAt?, partAt?, ← value_next?]
    cases step.next? n with
    | none => rfl
    | some m => exact ih m

theorem find_path (step : Step) (n : Node) : step.path.find n = .ok (.nodes (step.next? n).toList) := by
  cases step with
  | field name =>
    rw [Step.path, Path.find]
    cases hfield : n.field? name <;> simp [Step.next?, hfield]
  | element place =>
    rw [Step.path, Path.find]
    cases helement : n.element? place <;> simp [Step.next?, helement]

/-- **Steps behind a path that leads to one node or none** lead from there to one node or none. -/
theorem find_andThen {path : Path} {n : Node} {reached : Option Node} (h : path.find n = .ok (.nodes reached.toList))
    (steps : List Step) :
    (path.andThen steps).find n = .ok (.nodes (reached.bind (nodeAt? steps)).toList) := by
  induction steps generalizing path reached with
  | nil =>
    have hreached : reached.bind (nodeAt? []) = reached := by cases reached <;> rfl
    rw [hreached]
    exact h
  | cons step rest ih =>
    have hchild : (Path.child path step.path).find n = .ok (.nodes (reached.bind step.next?).toList) := by
      rw [Path.find_child h]
      cases reached with
      | none => rfl
      | some m =>
        rw [Option.toList_some, findIn, find_path]
        exact congrArg (fun list => Except.ok (Found.nodes list)) (List.append_nil _)
    have hrest := ih hchild
    rw [Option.bind_assoc] at hrest
    exact hrest

theorem isDefinite_andThen {path : Path} (hpath : path.isDefinite = true) {steps : List Step}
    (hstar : .field "*" ∉ steps) : (path.andThen steps).isDefinite = true := by
  induction steps generalizing path with
  | nil => exact hpath
  | cons step rest ih =>
    rw [List.mem_cons, not_or] at hstar
    refine ih ?_ hstar.2
    have hstep : step.path.isDefinite = true := by
      cases step with
      | field name =>
        have hname : name ≠ "*" := by
          rintro rfl
          exact hstar.1 rfl
        exact decide_eq_true hname
      | element place => rfl
    rw [Path.isDefinite, hpath, hstep]
    rfl

theorem beginsWithSort_andThen {path : Path} (hpath : path.beginsWithSort = false) (steps : List Step) :
    (path.andThen steps).beginsWithSort = false := by
  induction steps generalizing path with
  | nil => exact hpath
  | cons step rest ih =>
    have hchild : (Path.child path step.path).beginsWithSort = false := hpath
    exact ih hchild

/-- The values at an address: the one that the steps lead to, or none. -/
theorem values_andThen (steps : List Step) (document : Value) :
    (Path.root.andThen steps).values document = .ok (partAt? steps document).toList := by
  have hroot : Path.root.find (.ofDocument document) = .ok (.nodes (some (Node.ofDocument document)).toList) := rfl
  have hfind := find_andThen hroot steps
  have hvalue := value_nodeAt? steps (.ofDocument document)
  rw [Option.bind_some] at hfind
  rw [Path.values, beginsWithSort_andThen rfl, hfind, show partAt? steps document = _ from hvalue.symm]
  cases nodeAt? steps (.ofDocument document) <;> rfl

/-! ## Selecting at an address -/

section Select

variable {steps : List Step} (document : Value)

theorem readOne_address (hstar : .field "*" ∉ steps) (hshort : ∀ step ∈ steps, step.IsShort) :
    readOne document (.string (address steps)) =
      match partAt? steps document with
      | some v => .ok v
      | none => .error (.noMatch (address steps)) := by
  have hdefinite : (Path.root.andThen steps).isDefinite = true := isDefinite_andThen rfl hstar
  rw [readOne_of_values (ofText_address hshort) (values_andThen steps document), if_pos hdefinite]
  cases partAt? steps document <;> rfl

/-- Up to the first step that is too long. -/
theorem exists_first_long (hlong : ∃ step ∈ steps, ¬step.IsShort) : ∃ before place after,
    steps = before ++ .element place :: after ∧ (∀ step ∈ before, step.IsShort) ∧ 10 ^ Text.maxDigits ≤ place := by
  induction steps with
  | nil =>
    obtain ⟨step, hmem, -⟩ := hlong
    cases hmem
  | cons step rest ih =>
    by_cases hstep : step.IsShort
    · obtain ⟨other, hmem, hother⟩ := hlong
      rcases List.mem_cons.1 hmem with rfl | hmem
      · exact absurd hstep hother
      · obtain ⟨before, place, after, rfl, hbefore, hplace⟩ := ih ⟨other, hmem, hother⟩
        exact ⟨step :: before, place, after, rfl, List.forall_mem_cons.2 ⟨hstep, hbefore⟩, hplace⟩
    · cases step with
      | field name => exact absurd trivial hstep
      | element place => exact ⟨[], place, rest, rfl, by simp, Nat.le_of_not_lt hstep⟩

theorem readOne_address_of_long (hlong : ∃ step ∈ steps, ¬step.IsShort) :
    ∃ count, Text.maxDigits < count ∧
      readOne document (.string (address steps)) = .error (.tooManyDigits count) := by
  obtain ⟨before, place, after, rfl, hbefore, hplace⟩ := exists_first_long hlong
  obtain ⟨count, hcount, hread⟩ : ∃ count, Text.maxDigits < count ∧
      Path.ofText (address (before ++ .element place :: after)) = _ := ofText_address_of_long hbefore hplace
  exact ⟨count, hcount, by simp only [readOne, hread]⟩

end Select

/-- **Every node has an address.** A selection at the address of steps gives the value that the steps lead to, and where
they lead to none it fails for lack of a match; unless there is a place of too many digits among them, with which no
address is read. -/
theorem select_address (document : Value) {steps : List Step} (hstar : .field "*" ∉ steps) :
    ((∀ step ∈ steps, step.IsShort) → select false document (.string (address steps)) [] =
      match partAt? steps document with
      | some v => .ok v
      | none => .error (.noMatch (address steps))) ∧
    ((∃ step ∈ steps, ¬step.IsShort) →
      ∃ count, Text.maxDigits < count ∧
        select false document (.string (address steps)) [] = .error (.tooManyDigits count)) :=
  ⟨readOne_address document hstar, readOne_address_of_long document⟩

namespace Sample

/-- An object whose names hold a quote, nothing, and a point before a backslash. -/
def oddNames : Value :=
  .object [("it's", .object [("", .array [.null, .object [("a.b\\", .string "found")]])])]

/-- The steps to the innermost value. -/
def oddSteps : List Step := [.field "it's", .field "", .element 1, .field "a.b\\"]

theorem isShort_of_mem_oddSteps : ∀ step ∈ oddSteps, step.IsShort := by
  have hone : 1 < 10 ^ Text.maxDigits := Nat.one_lt_pow (by decide) (by decide)
  simpa [oddSteps, Step.IsShort] using hone

end Sample

/-- The address `$['it\'s'][''][1]['a.b\\']` is that of a text. -/
theorem select_address_odd : .field "*" ∉ Sample.oddSteps ∧
    select false Sample.oddNames (.string (address Sample.oddSteps)) [] = .ok (.string "found") := by
  have hstar : .field "*" ∉ Sample.oddSteps := by decide
  exact ⟨hstar, (select_address Sample.oddNames hstar).1 Sample.isShort_of_mem_oddSteps⟩

/-- **Not every address is read**: one with a place of 4301 digits is not, though it leads nowhere. -/
theorem not_select_address : ¬∀ (document : Value) (steps : List Step), .field "*" ∉ steps →
    select false document (.string (address steps)) [] =
      match partAt? steps document with
      | some v => .ok v
      | none => .error (.noMatch (address steps)) := by
  intro h
  obtain ⟨place, hplace⟩ : ∃ place : Nat, 10 ^ Text.maxDigits ≤ place := ⟨_, Nat.le_refl _⟩
  have hnone := h (.array []) [.element place] (by simp)
  obtain ⟨count, -, hlong⟩ : ∃ count, _ ∧ readOne (.array []) (.string (address [.element place])) = _ :=
    readOne_address_of_long (.array []) ⟨_, List.mem_singleton_self _, Nat.not_lt.2 hplace⟩
  have hpart : partAt? [.element place] (.array []) = none := by simp [partAt?, Step.part?]
  rw [show select false (.array []) (.string (address [.element place])) [] = _ from hlong, hpart] at hnone
  cases hnone

end Schemata.Query

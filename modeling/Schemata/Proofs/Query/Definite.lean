import Schemata.Proofs.Query.Unblocked
import Schemata.Proofs.Query.Words

/-!
# A definite path hides no match

`Singular` tells the paths of single steps: the document, the node itself, a sort, one field, one place, and one such
path behind another. These are the definite ones (`isDefinite_iff`), and each leads from a node to at most one node
(`Singular.count_le_one`, by induction on the path, with one search behind another in `length_findIn_le_one`). So a
selection that gives the only match of a definite path leaves none out, and any other path gives the list of its matches
(`select_complete`); nothing is selected where the path is blocked on the way, which takes a sort or a way to a
container.
-/

namespace Schemata.Query

open Json (Value)

/-! ## Paths of single steps -/

/-- A path of single steps. -/
inductive Singular : Path → Prop
  | root : Singular .root
  | here : Singular .here
  | sorted (keys : SortKeys) : Singular (.sorted keys)
  | field {name : String} (h : name ≠ "*") : Singular (.fields [name])
  | element (place : Int) : Singular (.indices [place])
  | child {first second : Path} (hfirst : Singular first) (hsecond : Singular second) : Singular (.child first second)

/-- **The definite paths are those of single steps.** -/
theorem isDefinite_iff {path : Path} : path.isDefinite = true ↔ Singular path := by
  constructor
  · intro h
    fun_induction Path.isDefinite path with
    | case1 => exact .root
    | case2 => exact .here
    | case3 keys => exact .sorted keys
    | case4 name => exact .field (of_decide_eq_true h)
    | case5 => cases h
    | case6 places =>
      obtain ⟨place, rfl⟩ := List.length_eq_one_iff.1 (beq_iff_eq.1 h)
      exact .element place
    | case7 first second ihfirst ihsecond =>
      obtain ⟨hfirst, hsecond⟩ := Bool.and_eq_true_iff.1 h
      exact .child (ihfirst hfirst) (ihsecond hsecond)
    | case8 => cases h
  · intro h
    induction h with
    | root => rfl
    | here => rfl
    | sorted => rfl
    | field h => exact decide_eq_true h
    | element => rfl
    | child hfirst hsecond ihfirst ihsecond => exact Bool.and_eq_true_iff.2 ⟨ihfirst, ihsecond⟩

/-! ## At most one match -/

/-- How many nodes are found. -/
def Found.count : Found → Nat
  | nodes list => list.length
  | single _ => 1

/-- What can be gone through is as long as it counts. -/
theorem Found.length_of_toList {found : Found} {list : List Node} (h : found.toList = .ok list) :
    list.length = found.count := by
  cases found with
  | nodes list' =>
    cases h
    rfl
  | single => cases h

theorem bind_eq_ok {α β : Type} {x : Except Obstacle α} {f : α → Except Obstacle β} {b : β} :
    x >>= f = .ok b ↔ ∃ a, x = .ok a ∧ f a = .ok b := by
  cases x with
  | ok a =>
    constructor
    · intro h
      exact ⟨a, rfl, h⟩
    · rintro ⟨a', ha, h⟩
      cases ha
      exact h
  | error obstacle =>
    constructor
    · intro h
      cases h
    · rintro ⟨a, ha, -⟩
      cases ha

/-- A search that finds at most one node, applied to at most one node. -/
theorem length_findIn_le_one {search : Node → Except Obstacle Found} {starts list : List Node}
    (hsearch : ∀ m found, search m = .ok found → found.count ≤ 1) (hstarts : starts.length ≤ 1)
    (h : findIn search starts = .ok list) : list.length ≤ 1 := by
  match starts, hstarts with
  | [], _ =>
    cases h
    exact Nat.zero_le _
  | [m], _ =>
    rw [findIn] at h
    obtain ⟨found, hfound, h⟩ := bind_eq_ok.1 h
    obtain ⟨own, hown, h⟩ := bind_eq_ok.1 h
    cases h
    rw [List.append_nil, Found.length_of_toList hown]
    exact hsearch m found hfound

/-- A sort gives one node, or the node itself. -/
theorem Node.count_sorted {keys : List KeyReader} {n : Node} {found : Found} (h : n.sorted keys = .ok found) :
    found.count = 1 := by
  unfold Node.sorted at h
  split at h
  · obtain ⟨elements, -, h⟩ := bind_eq_ok.1 h
    cases h
    rfl
  · split at h
    · obtain ⟨elements, -, h⟩ := bind_eq_ok.1 h
      cases h
      rfl
    · cases h
      rfl
  · cases h
    rfl

theorem length_filterMap_le_one {α β : Type} (f : α → Option β) (a : α) : ([a].filterMap f).length ≤ 1 :=
  List.length_filterMap_le f [a]

/-- **A path of single steps leads to at most one node.** -/
theorem Singular.count_le_one {path : Path} (hpath : Singular path) {n : Node} {found : Found}
    (h : path.find n = .ok found) : found.count ≤ 1 := by
  induction hpath generalizing n found with
  | root =>
    cases h
    exact Nat.le_refl _
  | here =>
    cases h
    exact Nat.le_refl _
  | sorted keys => exact Nat.le_of_eq (Node.count_sorted h)
  | field =>
    cases h
    exact length_filterMap_le_one ..
  | element place =>
    cases h
    exact length_filterMap_le_one ..
  | child _ _ ihfirst ihsecond =>
    rw [Path.find] at h
    obtain ⟨reached, hreached, h⟩ := bind_eq_ok.1 h
    obtain ⟨starts, hstarts, h⟩ := bind_eq_ok.1 h
    obtain ⟨list, hlist, h⟩ := bind_eq_ok.1 h
    cases h
    have hle : starts.length ≤ 1 := Found.length_of_toList hstarts ▸ ihfirst hreached
    exact length_findIn_le_one (fun _ _ => ihsecond) hle hlist

/-- A definite path has at most one value in a document. -/
theorem Path.length_values_le_one {path : Path} (hpath : path.isDefinite = true) {document : Value}
    {values : List Value} (h : path.values document = .ok values) : values.length ≤ 1 := by
  rw [Path.values] at h
  split at h
  · cases h
  · obtain ⟨found, hfound, h⟩ := bind_eq_ok.1 h
    obtain ⟨list, hlist, h⟩ := bind_eq_ok.1 h
    cases h
    rw [List.length_map, Found.length_of_toList hlist]
    exact (isDefinite_iff.1 hpath).count_le_one hfound

/-! ## Selections -/

/-- What a path is to give when these are all of its matches: the list of them, or for a definite path the only one. -/
inductive Path.Gives (path : Path) (text : String) (values : List Value) : Except PathFailure Value → Prop
  | all (hpath : ¬Singular path) : Gives path text values (.ok (.array values))
  | only {v : Value} (hpath : Singular path) (hvalues : values = [v]) : Gives path text values (.ok v)
  | nothing (hpath : Singular path) (hvalues : values = []) : Gives path text values (.error (.noMatch text))

section Select

variable {text : String} {path : Path} {document : Value}

/-- What is read where a path has values. -/
theorem readOne_of_values (hpath : Path.ofText text = .ok path) {values : List Value}
    (hvalues : path.values document = .ok values) :
    readOne document (.string text) =
      match if path.isDefinite then values.head? else some (.array values) with
      | some v => .ok v
      | none => .error (.noMatch text) := by
  have hresult : path.result? document = .ok (if path.isDefinite then values.head? else some (.array values)) := by
    rw [Path.result?, hvalues]
    rfl
  simp only [readOne, hpath, hresult]
  cases (if path.isDefinite then values.head? else some (.array values)) <;> rfl

/-- A path that has values gives all of them. -/
theorem gives_readOne (hpath : Path.ofText text = .ok path) {values : List Value}
    (hvalues : path.values document = .ok values) : path.Gives text values (readOne document (.string text)) := by
  rw [readOne_of_values hpath hvalues]
  by_cases hdefinite : path.isDefinite = true
  · have hsingular := isDefinite_iff.1 hdefinite
    rw [if_pos hdefinite]
    match values, Path.length_values_le_one hdefinite hvalues with
    | [], _ => exact .nothing hsingular rfl
    | [v], _ => exact .only hsingular rfl
  · rw [if_neg hdefinite]
    exact .all fun hsingular => hdefinite (isDefinite_iff.2 hsingular)

/-- A path that is blocked gives nothing. -/
theorem readOne_of_blocked (hpath : Path.ofText text = .ok path) {obstacle : Obstacle}
    (hvalues : path.values document = .error obstacle) :
    readOne document (.string text) = .error (.blocked obstacle) := by
  simp only [readOne, hpath, Path.result?, hvalues, bind, Except.bind]

/-- Several paths are read one after the other. -/
theorem readAll_eq_mapM (document : Value) (paths : List Value) :
    readAll document paths = paths.mapM (readOne document) := by
  induction paths with
  | nil => rfl
  | cons path rest ih =>
    rw [readAll, List.mapM_cons, ih]
    rfl

end Select

/-- **A definite path hides no match.** A path of single steps leads from any node to at most one node, and a path is
definite exactly when it is one. So a path that can be followed gives all its matches in the document: the list of them,
or the only match of a definite path, or the failure that there is none. A path that cannot be followed has a sort or a
way to a container in it, and gives what blocks it. Several paths give what each of them gives. -/
theorem select_complete (toLower : Bool) (v : Value) :
    (∀ path : Path, path.isDefinite = true ↔ Singular path) ∧
    (∀ (path : Path) (n : Node) (found : Found), Singular path → path.find n = .ok found → found.count ≤ 1) ∧
    (∀ (text : String) (path : Path) (document : Value),
      Path.ofText text = .ok path → document = (if toLower then v.lowerKeys else v) →
      (∃ values, path.values document = .ok values ∧ path.Gives text values (select toLower v (.string text) [])) ∨
        path.mayBeBlocked = true ∧ ∃ obstacle, path.values document = .error obstacle ∧
          select toLower v (.string text) [] = .error (.blocked obstacle)) ∧
    ∀ (path other : Value) (others : List Value),
      select toLower v path (other :: others) =
        ((path :: other :: others).mapM fun p => select toLower v p []).map .array := by
  refine ⟨fun path => isDefinite_iff, fun path n found hpath h => hpath.count_le_one h, ?_, ?_⟩
  · rintro text path document hpath rfl
    cases hvalues : path.values (if toLower then v.lowerKeys else v) with
    | ok values => exact .inl ⟨values, rfl, gives_readOne hpath hvalues⟩
    | error obstacle =>
      exact .inr ⟨Path.mayBeBlocked_of_error hvalues, obstacle, rfl, readOne_of_blocked hpath hvalues⟩
  · intro path other others
    exact congrArg (Except.map Value.array) (readAll_eq_mapM _ _)

namespace Sample

/-- An object with an array that holds an object. -/
def document : Value := .object [("a", .array [.int 1, .object [("b", .string "x")]]), ("c", .int 1)]

/-- The path `$.a[1].b`. -/
def nested : Path := .child (.child (.child .root (.fields ["a"])) (.indices [1])) (.fields ["b"])

/-- The path to a number that is then sorted. -/
def sortedNumber : Path := .child (.child .root (.fields ["c"])) (.sorted .done)

theorem ofText_nested : Path.ofText "$.a[1].b" = .ok nested := by
  have hwords : tokens "$.a[1].b".toList =
      [.root, .dot, .word "a", .openBracket, .integer 1, .closeBracket, .dot, .word "b"] := by
    iterate 8 refine tokens_eq_cons rfl rfl nofun ?_
    exact tokens_nil
  rw [Path.ofText, hwords]
  rfl

theorem ofText_sortedNumber : Path.ofText "$.c.\x60sorted\x60" = .ok sortedNumber := by
  have hwords : tokens "$.c.\x60sorted\x60".toList = [.root, .dot, .word "c", .dot, .operator .sorted] := by
    iterate 5 refine tokens_eq_cons rfl rfl nofun ?_
    exact tokens_nil
  rw [Path.ofText, hwords]
  rfl

end Sample

/-- The only match of a path of four single steps is given. -/
theorem select_complete_nested :
    Path.ofText "$.a[1].b" = .ok Sample.nested ∧ ∃ values, Sample.nested.values Sample.document = .ok values ∧
      Sample.nested.Gives "$.a[1].b" values (select false Sample.document (.string "$.a[1].b") []) := by
  obtain ⟨-, -, hgives, -⟩ := select_complete false Sample.document
  rcases hgives _ _ _ Sample.ofText_nested rfl with hvalues | ⟨hblocked, -⟩
  · exact ⟨Sample.ofText_nested, hvalues⟩
  · cases hblocked

/-- **Not every definite path gives a match or fails for lack of one**: a number cannot be sorted, and the path that
sorts it is blocked. -/
theorem not_select_complete : ¬∀ (text : String) (path : Path) (document : Value),
    Path.ofText text = .ok path → path.isDefinite = true →
      (∃ v, select false document (.string text) [] = .ok v) ∨
        select false document (.string text) [] = .error (.noMatch text) := by
  intro h
  have hread : select false Sample.document (.string "$.c.\x60sorted\x60") [] = .error (.blocked .notIterable) :=
    readOne_of_blocked Sample.ofText_sortedNumber rfl
  rcases h _ _ Sample.document Sample.ofText_sortedNumber rfl with ⟨v, hv⟩ | hv
  · rw [hread] at hv
    cases hv
  · rw [hread] at hv
    cases hv

end Schemata.Query

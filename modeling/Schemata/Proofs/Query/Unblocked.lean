import Schemata.Proofs.Json.Tree
import Schemata.Query.Select

/-!
# Paths that are always followed to their end

Only two kinds of steps can be blocked: a sort, which may meet something that has no order, and the way to a container,
which may not be there. `Path.mayBeBlocked` says whether there is such a step in a path or in one of its conditions. A
path without one leads from every node to a list of nodes (`Path.exists_nodes`), and a condition without one is decided
for every node (`Condition.exists_holds`), so such a path has values in every document (`Path.exists_values`).
-/

namespace Schemata.Query

open Json (Value)

/-! ## Steps that can be blocked -/

mutual

/-- Whether there is a sort in the path, or a way to a container. -/
def Path.mayBeBlocked : Path → Bool
  | .parent => true
  | .sorted _ => true
  | .child first second => first.mayBeBlocked || second.mayBeBlocked
  | .descend first second => first.mayBeBlocked || second.mayBeBlocked
  | .having first second => first.mayBeBlocked || second.mayBeBlocked
  | .lacking first second => first.mayBeBlocked || second.mayBeBlocked
  | .filter condition => condition.mayBeBlocked
  | _ => false

/-- Whether there is a sort in the condition, or a way to a container. -/
def Condition.mayBeBlocked : Condition → Bool
  | .present path => path.mayBeBlocked
  | .absent path => path.mayBeBlocked
  | .comparesTo path _ _ => path.mayBeBlocked
  | .compares path _ other => path.mayBeBlocked || other.mayBeBlocked
  | .both first second => first.mayBeBlocked || second.mayBeBlocked
  | .either first second => first.mayBeBlocked || second.mayBeBlocked

end

/-- A path that begins with a sort has a sort in it. -/
theorem Path.mayBeBlocked_of_beginsWithSort {path : Path} (h : path.beginsWithSort = true) :
    path.mayBeBlocked = true := by
  fun_induction Path.beginsWithSort path with
  | case1 => rfl
  | case2 first second ih => simp [Path.mayBeBlocked, ih h]
  | case3 first second ih => simp [Path.mayBeBlocked, ih h]
  | case4 first second ih => simp [Path.mayBeBlocked, ih h]
  | case5 first second ih => simp [Path.mayBeBlocked, ih h]
  | case6 => cases h

/-! ## Searches that give lists -/

variable {search : Node → Except Obstacle Found} {test : Node → Except Obstacle Bool}

/-- The search gives a list from every node. -/
def GivesNodes (search : Node → Except Obstacle Found) : Prop := ∀ n, ∃ list, search n = .ok (.nodes list)

theorem exists_findIn (h : GivesNodes search) (nodes : List Node) : ∃ list, findIn search nodes = .ok list := by
  induction nodes with
  | nil => exact ⟨[], rfl⟩
  | cons n rest ih =>
    obtain ⟨own, hown⟩ := h n
    obtain ⟨others, hothers⟩ := ih
    refine ⟨own ++ others, ?_⟩
    rw [findIn, hown, hothers]
    rfl

theorem exists_keepNodes (h : ∀ n, ∃ b, test n = .ok b) (nodes : List Node) :
    ∃ list, keepNodes test nodes = .ok list := by
  induction nodes with
  | nil => exact ⟨[], rfl⟩
  | cons n rest ih =>
    obtain ⟨kept, hkept⟩ := h n
    obtain ⟨others, hothers⟩ := ih
    refine ⟨if kept then n :: others else others, ?_⟩
    rw [keepNodes, hkept, hothers]
    rfl

section Inside

variable {around : List Value}

theorem exists_findInsideElements {elements : List Value}
    (h : ∀ v ∈ elements, ∃ list, findInside search around v = .ok list) :
    ∃ list, findInsideElements search around elements = .ok list := by
  induction elements with
  | nil => exact ⟨[], rfl⟩
  | cons v rest ih =>
    obtain ⟨hv, hrest⟩ := List.forall_mem_cons.1 h
    obtain ⟨own, hown⟩ := hv
    obtain ⟨others, hothers⟩ := ih hrest
    refine ⟨own ++ others, ?_⟩
    rw [findInsideElements, hown, hothers]
    rfl

theorem exists_findInsideFields {fields : Json.Fields}
    (h : ∀ p ∈ fields, ∃ list, findInside search around p.2 = .ok list) :
    ∃ list, findInsideFields search around fields = .ok list := by
  induction fields with
  | nil => exact ⟨[], rfl⟩
  | cons p rest ih =>
    obtain ⟨name, v⟩ := p
    obtain ⟨hv, hrest⟩ := List.forall_mem_cons.1 h
    obtain ⟨own, hown⟩ := hv
    obtain ⟨others, hothers⟩ := ih hrest
    refine ⟨own ++ others, ?_⟩
    rw [findInsideFields, hown, hothers]
    rfl

theorem findInside_of_isScalar {v : Value} (hv : v.IsScalar) :
    findInside search around v = (do (← search ⟨v, around⟩).toList) := by
  cases v with
  | array => cases hv
  | object => cases hv
  | _ => rfl

/-- A search that gives lists can be made everywhere inside a value. -/
theorem exists_findInside (h : GivesNodes search) (v : Value) (around : List Value) :
    ∃ list, findInside search around v = .ok list := by
  induction v using Value.induction generalizing around with
  | scalar v hv =>
    obtain ⟨list, hlist⟩ := h ⟨v, around⟩
    refine ⟨list, ?_⟩
    rw [findInside_of_isScalar hv, hlist]
    rfl
  | array elements ih =>
    obtain ⟨own, hown⟩ := h ⟨.array elements, around⟩
    obtain ⟨inner, hinner⟩ := exists_findInsideElements fun v hv => ih v hv (.array elements :: around)
    refine ⟨own ++ inner, ?_⟩
    rw [findInside, hown, hinner]
    rfl
  | object fields ih =>
    obtain ⟨own, hown⟩ := h ⟨.object fields, around⟩
    obtain ⟨inner, hinner⟩ := exists_findInsideFields fun p hp => ih p hp (.object fields :: around)
    refine ⟨own ++ inner, ?_⟩
    rw [findInside, hown, hinner]
    rfl

end Inside

/-! ## Steps behind a path that leads to a list -/

/-- What is found from every node decides whether to keep it. -/
theorem GivesNodes.exists_kept (h : GivesNodes search) (judge : Found → Bool) (m : Node) :
    ∃ b, (search m).map judge = .ok b := by
  obtain ⟨list, hlist⟩ := h m
  exact ⟨judge (.nodes list), by rw [hlist]; rfl⟩

/-- The search everywhere inside a node. -/
def Path.findBelow (path : Path) (m : Node) : Except Obstacle Found :=
  (findInside path.find m.around m.value).map .nodes

section Behind

variable {first second : Path} {n : Node} {starts : List Node} (hfirst : first.find n = .ok (.nodes starts))
include hfirst

theorem Path.find_child : (child first second).find n = (findIn second.find starts).map .nodes := by
  rw [find, hfirst]
  exact bind_pure_comp Found.nodes (findIn second.find starts)

theorem Path.find_descend : (descend first second).find n = (findIn second.findBelow starts).map .nodes := by
  have hbelow : second.findBelow = fun m => do return .nodes (← findInside second.find m.around m.value) :=
    funext fun m => (bind_pure_comp Found.nodes (findInside second.find m.around m.value)).symm
  rw [find, hfirst, hbelow]
  exact bind_pure_comp Found.nodes (findIn _ starts)

theorem Path.find_having :
    (having first second).find n = (keepNodes (fun m => (second.find m).map Found.isPresent) starts).map .nodes := by
  have hjudge : (fun m => (second.find m).map Found.isPresent) = fun m => do return (← second.find m).isPresent :=
    funext fun m => (bind_pure_comp Found.isPresent (second.find m)).symm
  rw [find, hfirst, hjudge]
  exact bind_pure_comp Found.nodes (keepNodes _ starts)

theorem Path.find_lacking :
    (lacking first second).find n =
      (keepNodes (fun m => (second.find m).map fun found => !found.isPresent) starts).map .nodes := by
  have hjudge : (fun m => (second.find m).map fun found => !found.isPresent) =
      fun m => do return !(← second.find m).isPresent :=
    funext fun m => (bind_pure_comp (fun found => !found.isPresent) (second.find m)).symm
  rw [find, hfirst, hjudge]
  exact bind_pure_comp Found.nodes (keepNodes _ starts)

end Behind

/-! ## Paths and conditions -/

mutual

/-- **A path without a sort and without a way to a container leads to a list of nodes.** -/
theorem Path.exists_nodes : ∀ path : Path, path.mayBeBlocked = false → GivesNodes path.find
  | .root, _, n => ⟨_, rfl⟩
  | .here, _, n => ⟨_, rfl⟩
  | .length, _, n => ⟨_, rfl⟩
  | .keys, _, n => by
    rw [Path.find]
    split
    · exact ⟨_, rfl⟩
    · exact ⟨_, rfl⟩
  | .all, _, n => ⟨_, rfl⟩
  | .fields names, _, n => ⟨_, rfl⟩
  | .indices places, _, n => ⟨_, rfl⟩
  | .slice start stop step, _, n => by
    rw [Path.find]
    split
    · exact ⟨_, rfl⟩
    · exact ⟨_, rfl⟩
  | .child first second, h, n => by
    obtain ⟨hfirst, hsecond⟩ := Bool.or_eq_false_iff.1 h
    obtain ⟨starts, hstarts⟩ := first.exists_nodes hfirst n
    obtain ⟨list, hlist⟩ := exists_findIn (second.exists_nodes hsecond) starts
    exact ⟨list, by rw [Path.find_child hstarts, hlist]; rfl⟩
  | .descend first second, h, n => by
    obtain ⟨hfirst, hsecond⟩ := Bool.or_eq_false_iff.1 h
    obtain ⟨starts, hstarts⟩ := first.exists_nodes hfirst n
    have hbelow : GivesNodes second.findBelow := by
      intro m
      obtain ⟨list, hlist⟩ := exists_findInside (second.exists_nodes hsecond) m.value m.around
      exact ⟨list, by rw [Path.findBelow, hlist]; rfl⟩
    obtain ⟨list, hlist⟩ := exists_findIn hbelow starts
    exact ⟨list, by rw [Path.find_descend hstarts, hlist]; rfl⟩
  | .filter condition, h, n => by
    obtain ⟨list, hlist⟩ := exists_keepNodes
      (fun m => condition.exists_holds h (if condition.namesDocument then m else m.alone)) n.parts
    exact ⟨list, by rw [Path.find]; simp only [hlist]; rfl⟩
  | .having first second, h, n => by
    obtain ⟨hfirst, hsecond⟩ := Bool.or_eq_false_iff.1 h
    obtain ⟨starts, hstarts⟩ := first.exists_nodes hfirst n
    obtain ⟨list, hlist⟩ := exists_keepNodes ((second.exists_nodes hsecond).exists_kept _) starts
    exact ⟨list, by rw [Path.find_having hstarts, hlist]; rfl⟩
  | .lacking first second, h, n => by
    obtain ⟨hfirst, hsecond⟩ := Bool.or_eq_false_iff.1 h
    obtain ⟨starts, hstarts⟩ := first.exists_nodes hfirst n
    obtain ⟨list, hlist⟩ := exists_keepNodes ((second.exists_nodes hsecond).exists_kept _) starts
    exact ⟨list, by rw [Path.find_lacking hstarts, hlist]; rfl⟩

/-- **A condition without a sort and without a way to a container is decided.** -/
theorem Condition.exists_holds : ∀ condition : Condition, condition.mayBeBlocked = false →
    ∀ n, ∃ b, condition.holds n = .ok b
  | .present path, h, n => by
    obtain ⟨list, hlist⟩ := path.exists_nodes h n
    exact ⟨_, by rw [Condition.holds, hlist]; rfl⟩
  | .absent path, h, n => by
    obtain ⟨list, hlist⟩ := path.exists_nodes h n
    exact ⟨_, by rw [Condition.holds, hlist]; rfl⟩
  | .comparesTo path relation value, h, n => by
    obtain ⟨list, hlist⟩ := path.exists_nodes h n
    rw [Condition.holds, hlist]
    simp only [bind, Except.bind, Relation.holdsTo, Found.toList]
    split
    · exact ⟨_, rfl⟩
    · exact ⟨_, rfl⟩
  | .compares path relation other, h, n => by
    obtain ⟨hpath, hother⟩ := Bool.or_eq_false_iff.1 h
    obtain ⟨list, hlist⟩ := path.exists_nodes hpath n
    obtain ⟨list', hlist'⟩ := other.exists_nodes hother n
    rw [Condition.holds, hlist, hlist']
    simp only [bind, Except.bind, Relation.holdsBetween, Found.toList]
    split
    · exact ⟨_, rfl⟩
    · exact ⟨_, rfl⟩
  | .both first second, h, n => by
    obtain ⟨hfirst, hsecond⟩ := Bool.or_eq_false_iff.1 h
    obtain ⟨b, hb⟩ := first.exists_holds hfirst n
    obtain ⟨c, hc⟩ := second.exists_holds hsecond n
    rw [Condition.holds, hb]
    cases b with
    | true => exact ⟨c, hc⟩
    | false => exact ⟨false, rfl⟩
  | .either first second, h, n => by
    obtain ⟨hfirst, hsecond⟩ := Bool.or_eq_false_iff.1 h
    obtain ⟨b, hb⟩ := first.exists_holds hfirst n
    obtain ⟨c, hc⟩ := second.exists_holds hsecond n
    rw [Condition.holds, hb]
    cases b with
    | true => exact ⟨true, rfl⟩
    | false => exact ⟨c, hc⟩

end

/-- Such a path has values in every document. -/
theorem Path.exists_values {path : Path} (h : path.mayBeBlocked = false) (document : Value) :
    ∃ values, path.values document = .ok values := by
  obtain ⟨list, hlist⟩ := path.exists_nodes h (.ofDocument document)
  have hbegins : path.beginsWithSort = false :=
    Bool.eq_false_iff.2 fun hsort => Bool.eq_false_iff.1 h (mayBeBlocked_of_beginsWithSort hsort)
  refine ⟨list.map Node.value, ?_⟩
  rw [Path.values, hbegins, hlist]
  rfl

/-- A path that is blocked in a document has such a step. -/
theorem Path.mayBeBlocked_of_error {path : Path} {document : Value} {obstacle : Obstacle}
    (h : path.values document = .error obstacle) : path.mayBeBlocked = true := by
  cases hopen : path.mayBeBlocked with
  | true => rfl
  | false =>
    obtain ⟨values, hok⟩ := Path.exists_values hopen document
    rw [hok] at h
    cases h

end Schemata.Query

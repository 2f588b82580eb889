import Schemata.Query.Compare
import Schemata.Query.Path
import Schemata.Query.Sort

/-!
# The matches of a path

A `Node` is a value together with the containers around it. `Path.find` gives what a path leads to from a node: the
matching nodes in order. Only a sort of something that cannot be sorted gives that node itself in place of a list; it
counts as found, but whoever goes through it fails. `Condition.holds` decides a condition of a node. A filter looks at
each part by itself, without what is around it; only a condition that speaks of the document sees it in its place.
-/

namespace Schemata.Query

open Json (Value)

/-- A value and the containers around it, the nearest first. -/
structure Node where
  value : Value
  /-- The containers around it, the nearest first. -/
  around : List Value

namespace Node

/-- The node of a document. -/
def ofDocument (v : Value) : Node := ⟨v, []⟩

/-- The document that a node stands in. -/
def document (n : Node) : Node := ⟨n.around.getLastD n.value, []⟩

/-- A part of the node. -/
def part (n : Node) (v : Value) : Node := ⟨v, n.value :: n.around⟩

/-- The container of the node. -/
def container? : Node → Option Node
  | ⟨_, []⟩ => none
  | ⟨_, v :: around⟩ => some ⟨v, around⟩

/-- The node without the containers around it. -/
def alone (n : Node) : Node := ⟨n.value, []⟩

/-- The parts of an array or object, in order. -/
def parts (n : Node) : List Node :=
  match n.value with
  | .array elements => elements.map n.part
  | .object fields => fields.map fun p => n.part p.2
  | _ => []

/-- The field of a name. -/
def field? (n : Node) (name : String) : Option Node :=
  match n.value with
  | .object fields => (Json.field? name fields).map n.part
  | _ => none

/-- The element at a place, counted from the end if it is negative. -/
def element? (n : Node) (place : Int) : Option Node :=
  match n.value with
  | .array elements =>
    let place := if place < 0 then place + elements.length else place
    if place < 0 then none else elements[place.toNat]?.map n.part
  | _ => none

end Node

/-! ## Slices -/

/-- A bound moved into the range from `low` to `high`, counted from the end of `size` elements if negative. -/
def clampBound (size : Nat) (low high bound : Int) : Int :=
  if bound < 0 then max low (bound + size) else min high bound

/-- Every `step`-th number from `start` on, before `stop` on the way; at most `fuel` of them. -/
def stepsFrom (stop step : Int) : Nat → Int → List Int
  | 0, _ => []
  | fuel + 1, start =>
    if (0 < step ∧ start < stop) ∨ (step < 0 ∧ stop < start) then start :: stepsFrom stop step fuel (start + step)
    else []

/-- The places of a slice of `size` elements. -/
def slicePlaces (size : Nat) (start stop step : Option Int) : List Int :=
  let step := step.getD 1
  if 0 < step then
    let start := clampBound size 0 size (start.getD 0)
    let stop := (stop.map (clampBound size 0 size)).getD size
    stepsFrom stop step size start
  else
    let start := (start.map (clampBound size (-1) (size - 1))).getD (size - 1)
    let stop := (stop.map (clampBound size (-1) (size - 1))).getD (-1)
    stepsFrom stop step size start

/-! ## Findings -/

/-- Why a path cannot be followed. -/
inductive Obstacle where
  | notIterable
  | notSized
  /-- Two values without an order are sorted. -/
  | unordered (kinds : Json.Unordered)
  /-- The container of a node that stands in none is asked for. -/
  | noContainer
  /-- A document of this kind is sorted before a step has led to it. -/
  | notReached (kind : String)
  deriving DecidableEq, Repr

/-- What a path leads to. -/
inductive Found where
  | nodes (list : List Node)
  | single (node : Node)

namespace Found

/-- Whether anything is found. -/
def isPresent : Found → Bool
  | nodes list => !list.isEmpty
  | single _ => true

/-- The nodes to go through. -/
def toList : Found → Except Obstacle (List Node)
  | nodes list => .ok list
  | single _ => .error .notIterable

/-- The only node of a list, if it has one node. -/
def one? : Found → Except Obstacle (Option Node)
  | nodes [n] => .ok (some n)
  | nodes _ => .ok none
  | single _ => .error .notSized

end Found

/-- Applies a search to every node and joins what is found. -/
def findIn (search : Node → Except Obstacle Found) : List Node → Except Obstacle (List Node)
  | [] => .ok []
  | n :: rest => do
    let own ← (← search n).toList
    let others ← findIn search rest
    return own ++ others

/-- The nodes for which a test holds. -/
def keepNodes (test : Node → Except Obstacle Bool) : List Node → Except Obstacle (List Node)
  | [] => .ok []
  | n :: rest => do
    let kept ← test n
    let others ← keepNodes test rest
    return if kept then n :: others else others

/-! ## Everything inside a node -/

mutual

/-- Applies a search to a value and to everything inside it, each container before its parts. -/
def findInside (search : Node → Except Obstacle Found) (around : List Value) : Value → Except Obstacle (List Node)
  | .array elements => do
    let own ← (← search ⟨.array elements, around⟩).toList
    let inner ← findInsideElements search (.array elements :: around) elements
    return own ++ inner
  | .object fields => do
    let own ← (← search ⟨.object fields, around⟩).toList
    let inner ← findInsideFields search (.object fields :: around) fields
    return own ++ inner
  | v => do (← search ⟨v, around⟩).toList

/-- Applies a search to elements and to everything inside them. -/
def findInsideElements (search : Node → Except Obstacle Found) (around : List Value) :
    List Value → Except Obstacle (List Node)
  | [] => .ok []
  | v :: rest => do
    let own ← findInside search around v
    let others ← findInsideElements search around rest
    return own ++ others

/-- Applies a search to the values of fields and to everything inside them. -/
def findInsideFields (search : Node → Except Obstacle Found) (around : List Value) :
    List (String × Value) → Except Obstacle (List Node)
  | [] => .ok []
  | (_, v) :: rest => do
    let own ← findInside search around v
    let others ← findInsideFields search around rest
    return own ++ others

end

/-! ## Sorting -/

/-- A sort key as the search for it, with its direction. -/
abbrev KeyReader := (Node → Except Obstacle Found) × Bool

/-- Whether the first value comes before the second by itself. -/
def precedes (v w : Value) : Except Obstacle Bool := (v.sortsBefore w).mapError .unordered

/-- Whether the first value comes before the second by the first key that finds one value in each, and not the same. -/
def precedesBy : List KeyReader → Value → Value → Except Obstacle Bool
  | [], _, _ => .ok false
  | (find, descending) :: rest, v, w => do
    let left ← find (.ofDocument v)
    let right ← find (.ofDocument w)
    if !left.isPresent || !right.isPresent then precedesBy rest v w
    else
      match ← left.one? with
      | none => precedesBy rest v w
      | some x =>
        match ← right.one? with
        | none => precedesBy rest v w
        | some y =>
          if x.value.alike y.value then precedesBy rest v w
          else return if ← precedes x.value y.value then !descending else descending

/-- The elements in order: of their own, or by keys. -/
def sortElements (keys : List KeyReader) (elements : List Value) : Except Obstacle (List Value) :=
  sortBy (if keys.isEmpty then precedes else precedesBy keys) elements

/-- What a sort of a node gives: the sorted array, or the sorted names of an object if there are no keys. -/
def Node.sorted (keys : List KeyReader) (n : Node) : Except Obstacle Found :=
  match n.value with
  | .array elements => return .nodes [.ofDocument (.array (← sortElements keys elements))]
  | .object fields =>
    if keys.isEmpty then
      return .nodes [.ofDocument (.array (← sortElements [] (fields.map fun p => .string p.1)))]
    else .ok (.single n)
  | _ => .ok (.single n)

/-! ## Matches -/

/-- The count of parts of a text, an array or an object. -/
def size? : Value → Option Nat
  | .string s => some s.length
  | .array elements => some elements.length
  | .object fields => some fields.length
  | _ => none

/-- Whether a comparison holds between what two paths find: some pair is related so, and where one side finds nothing
the absent values count as the same as each other and as nothing else. -/
def Relation.holdsBetween (r : Relation) (left right : Found) : Except Obstacle Bool :=
  if left.isPresent && right.isPresent then do
    let ms ← right.toList
    return (← left.toList).any fun n => ms.any fun m => r.holds n.value m.value
  else
    return match r with
      | .equal | .atMost | .atLeast => !left.isPresent && !right.isPresent
      | .unequal => left.isPresent != right.isPresent
      | .below | .above => false

/-- Whether a comparison holds between what a path finds and a value: for some match, or as unequal when there is
none. -/
def Relation.holdsTo (r : Relation) (left : Found) (v : Value) : Except Obstacle Bool :=
  if left.isPresent then return (← left.toList).any fun n => r.holds n.value v else .ok (r == .unequal)

mutual

/-- What a path leads to from a node. -/
def Path.find : Path → Node → Except Obstacle Found
  | .root, n => .ok (.nodes [n.document])
  | .here, n => .ok (.nodes [n])
  | .parent, n =>
    match n.container? with
    | some around => .ok (.nodes [around])
    | none => .error .noContainer
  | .length, n => .ok (.nodes ((size? n.value).map fun k => .ofDocument (.int k)).toList)
  | .keys, n =>
    match n.value with
    | .object fields => .ok (.nodes (fields.map fun p => .ofDocument (.string p.1)))
    | _ => .ok (.nodes [])
  | .all, n => .ok (.nodes n.parts)
  | .fields names, n => .ok (.nodes (names.filterMap n.field?))
  | .indices places, n => .ok (.nodes (places.filterMap n.element?))
  | .slice start stop step, n =>
    match n.value with
    | .array elements => .ok (.nodes ((slicePlaces elements.length start stop step).filterMap n.element?))
    | _ => .ok (.nodes [])
  | .child first second, n => do
    return .nodes (← findIn (fun m => second.find m) (← (← first.find n).toList))
  | .descend first second, n => do
    let starts := match ← first.find n with
      | .nodes list => list
      | .single m => [m]
    return .nodes (← findIn (fun m => return .nodes (← findInside (fun d => second.find d) m.around m.value)) starts)
  | .filter condition, n => do
    let seen (m : Node) : Node := if condition.namesDocument then m else m.alone
    return .nodes (← keepNodes (fun m => condition.holds (seen m)) n.parts)
  | .sorted keys, n => n.sorted keys.readers
  | .having first second, n => do
    return .nodes (← keepNodes (fun m => return (← second.find m).isPresent) (← (← first.find n).toList))
  | .lacking first second, n => do
    return .nodes (← keepNodes (fun m => return !(← second.find m).isPresent) (← (← first.find n).toList))

/-- The searches for the keys of a sort. -/
def SortKeys.readers : SortKeys → List KeyReader
  | .done => []
  | .key path descending rest => (fun n => path.find n, descending) :: rest.readers

/-- Whether a condition holds of a node. -/
def Condition.holds : Condition → Node → Except Obstacle Bool
  | .present path, n => return (← path.find n).isPresent
  | .absent path, n => return !(← path.find n).isPresent
  | .comparesTo path r v, n => do r.holdsTo (← path.find n) v
  | .compares path r other, n => do r.holdsBetween (← path.find n) (← other.find n)
  | .both first second, n => do if ← first.holds n then second.holds n else return false
  | .either first second, n => do if ← first.holds n then return true else second.holds n

end

end Schemata.Query

/-!
# Runs

A run is a stretch of a list that is in order already. `firstRun` takes the run that a list starts with, turned round if
it descends strictly, and `insertAll` puts further elements into a run, each behind those that it does not precede, at a
place found by halving. A comparison may fail, and then the work breaks off. Which elements are compared is settled too:
it decides the outcome for a comparison that is no order.
-/

namespace Schemata.Query

variable {ε α : Type}

/-- The place between `low` and `high` for an element: behind every element looked at that it does not precede. -/
def insertionPoint (precedes : α → α → Except ε Bool) (placed : Array α) (x : α) (low high : Nat) : Except ε Nat :=
  if _h : low < high then
    let middle := low + (high - low) / 2
    match placed[middle]? with
    | some y => do
      if ← precedes x y then insertionPoint precedes placed x low middle
      else insertionPoint precedes placed x (middle + 1) high
    | none => .ok low
  else .ok low
termination_by high - low
decreasing_by all_goals omega

/-- Puts an element into a run. -/
def insertSorted (precedes : α → α → Except ε Bool) (placed : Array α) (x : α) : Except ε (Array α) := do
  let place ← insertionPoint precedes placed x 0 placed.size
  return (placed.toList.take place ++ x :: placed.toList.drop place).toArray

/-- Puts elements into a run. -/
def insertAll (precedes : α → α → Except ε Bool) (run : List α) (more : List α) : Except ε (List α) :=
  return (← more.foldlM (insertSorted precedes) run.toArray).toList

/-- Splits off the elements that go on with a run in one direction, the latest first. -/
def splitRun (goesOn : α → α → Except ε Bool) (run : List α) (last : α) : List α → Except ε (List α × List α)
  | [] => .ok (last :: run, [])
  | x :: rest => do
    if ← goesOn last x then splitRun goesOn (last :: run) x rest
    else return (last :: run, x :: rest)

/-- The run that a list starts with, in order, and the rest. -/
def firstRun (precedes : α → α → Except ε Bool) : List α → Except ε (List α × List α)
  | [] => .ok ([], [])
  | [x] => .ok ([x], [])
  | x :: y :: rest => do
    if ← precedes y x then splitRun (fun last next => precedes next last) [x] y rest
    else
      let (run, rest) ← splitRun (fun last next => return !(← precedes next last)) [x] y rest
      return (run.reverse, rest)

end Schemata.Query

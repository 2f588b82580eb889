import Schemata.Query.Insertion
import Schemata.Query.Merge

/-!
# Sorting

`sortBy` cuts a list into runs, makes short runs longer by insertion, and merges neighbours in an order that keeps the
merges balanced: the place where two runs meet has a power, its depth in the balanced division of the whole list, and
deeper places are merged first. For an order that is total this is the stable sort; for any other comparison the
outcome is settled by the comparisons made.
-/

namespace Schemata.Query

variable {ε α : Type}

/-- The least length of a run in a list of this length: the length itself below 64, else its first six binary digits,
and one more if any other digit is set. -/
def leastRun (length : Nat) (carry : Nat := 0) : Nat :=
  if 64 ≤ length then leastRun (length / 2) (max carry (length % 2)) else length + carry
termination_by length
decreasing_by omega

/-- The depth at which two fractions of `whole`, both doubled, lie in different halves. -/
def powerFrom (whole : Nat) : Nat → Nat → Nat → Nat → Nat
  | 0, _, _, power => power
  | fuel + 1, a, b, power =>
    if whole ≤ a then powerFrom whole fuel (2 * (a - whole)) (2 * (b - whole)) (power + 1)
    else if whole ≤ b then power + 1
    else powerFrom whole fuel (2 * a) (2 * b) (power + 1)

/-- A run that waits for its merge. -/
structure Run (α : Type) where
  start : Nat
  elements : List α
  /-- The power of the place where it meets the next run. -/
  power : Nat

/-- Two neighbours that are merged, with the patience for the next merge. -/
def Run.merge (precedes : α → α → Except ε Bool) (patience : Nat) (left right : Run α) : Except ε (Run α × Nat) := do
  let (elements, patience) ← mergeRuns precedes patience left.elements right.elements
  return ({ left with elements }, patience)

/-- Merges the last run with those before it that meet it at a deeper place, and gives it the power of the place where
it meets the next one. -/
def settle (precedes : α → α → Except ε Bool) (power patience : Nat) (last : Run α) :
    List (Run α) → Except ε (List (Run α) × Nat)
  | [] => .ok ([{ last with power }], patience)
  | before :: rest =>
    if power < before.power then do
      let (merged, patience) ← before.merge precedes patience last
      settle precedes power patience merged rest
    else .ok ({ last with power } :: before :: rest, patience)

/-- Makes room for a run of the given length behind those that wait, the last one first. -/
def settleFor (precedes : α → α → Except ε Bool) (whole length patience : Nat) :
    List (Run α) → Except ε (List (Run α) × Nat)
  | [] => .ok ([], patience)
  | last :: rest =>
    let a := 2 * last.start + last.elements.length
    let power := powerFrom whole (whole + 1) a (a + last.elements.length + length) 0
    settle precedes power patience last rest

/-- Cuts a list into runs and merges those that are due. -/
def collectRuns (precedes : α → α → Except ε Bool) (whole : Nat) :
    Nat → Nat → Nat → List (Run α) → List α → Except ε (List (Run α) × Nat)
  | 0, _, patience, waiting, _ => .ok (waiting, patience)
  | fuel + 1, start, patience, waiting, xs =>
    if xs.isEmpty then .ok (waiting, patience)
    else do
      let (run, rest) ← firstRun precedes xs
      let missing := leastRun whole - run.length
      let elements ← insertAll precedes run (rest.take missing)
      let (waiting, patience) ← settleFor precedes whole elements.length patience waiting
      collectRuns precedes whole fuel (start + elements.length) patience (⟨start, elements, 0⟩ :: waiting)
        (rest.drop missing)

/-- Merges all runs that wait, the last one first; the one in the middle of three goes to the shorter neighbour. -/
def mergeAll (precedes : α → α → Except ε Bool) : Nat → Nat → List (Run α) → Except ε (List α)
  | fuel + 1, patience, last :: middle :: before :: rest =>
    if before.elements.length < last.elements.length then do
      let (merged, patience) ← before.merge precedes patience middle
      mergeAll precedes fuel patience (last :: merged :: rest)
    else do
      let (merged, patience) ← middle.merge precedes patience last
      mergeAll precedes fuel patience (merged :: before :: rest)
  | _, patience, [last, before] => return (← before.merge precedes patience last).1.elements
  | _, _, waiting => .ok (waiting.reverse.flatMap Run.elements)

/-- The list in the order in which elements precede each other. -/
def sortBy (precedes : α → α → Except ε Bool) (xs : List α) : Except ε (List α) := do
  let (waiting, patience) ← collectRuns precedes xs.length xs.length 0 longStretch [] xs
  mergeAll precedes waiting.length patience waiting

end Schemata.Query

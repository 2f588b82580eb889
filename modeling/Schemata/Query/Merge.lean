/-!
# Merging two runs

`mergeRuns` merges two runs that stand side by side. What is in place already at either end stays. The rest is merged
from the side of the longer run, one element at a time, until one run has won as many times in a row as the patience
allows; from there on whole stretches are taken, whose ends are found in leaps (`leap`), as long as stretches stay long.
The patience goes from merge to merge. In exact terms this settles which elements are compared.
-/

namespace Schemata.Query

variable {ε α : Type}

/-! ## Leaping -/

/-- Leaps ahead while the test holds, each leap about twice as long as the one before: the last place known to hold and
the next place to try. -/
def leapOn (test : α → Except ε Bool) (xs : List α) : Nat → Nat → Nat → Except ε (Nat × Nat)
  | 0, last, next => .ok (last, next)
  | fuel + 1, last, next =>
    match xs[next]? with
    | some x => do
      if ← test x then leapOn test xs fuel next (2 * next + 1) else return (last, next)
    | none => .ok (last, next)

/-- Finds by halving where the test ends between `low` and `high`. Where the elements are met in reverse, the middle is
the one that is nearer to the start. -/
def halve (late : Bool) (test : α → Except ε Bool) (xs : List α) (low high : Nat) : Except ε Nat :=
  if _h : low < high then
    let middle := low + (if late then high - low - 1 else high - low) / 2
    match xs[middle]? with
    | some x => do
      if ← test x then halve late test xs (middle + 1) high else halve late test xs low middle
    | none => .ok low
  else .ok low
termination_by high - low
decreasing_by all_goals (split <;> omega)

/-- How many elements at the start pass a test that, once failed, is taken to fail for good. -/
def leap (late : Bool) (test : α → Except ε Bool) (xs : List α) : Except ε Nat :=
  match xs with
  | [] => .ok 0
  | x :: _ => do
    if ← test x then
      let (last, next) ← leapOn test xs xs.length 0 1
      halve late test xs (last + 1) (min next xs.length)
    else return 0

/-! ## A merge under way -/

/-- A merge under way: what is merged, the latest first, and what is left of the run that gives way and of the other,
which has an element that comes behind all. -/
structure Merge (α : Type) where
  /-- What is merged, the latest first. -/
  done : List α
  /-- What is left of the run that started the merge. -/
  near : List α
  far : List α
  /-- How many times in a row a run wins before stretches are taken. -/
  patience : Nat

/-- How a merge goes on. -/
inductive Pace where
  /-- Element by element, with the times in a row that the near and the far run won. -/
  | single (nearWins farWins : Nat)
  /-- By stretches, for the first time or again. -/
  | stretches (again : Bool)

/-- The count from which on a stretch is long. -/
def longStretch : Nat := 7

namespace Merge

/-- Whether the rest needs no comparison. -/
def isSettled (m : Merge α) : Bool :=
  match m.near, m.far with
  | [], _ => true
  | _, [] => true
  | _, [_] => true
  | _, _ => false

/-- Takes elements of the near run. -/
def takeNear (count : Nat) (m : Merge α) : Merge α :=
  { m with done := (m.near.take count).reverse ++ m.done, near := m.near.drop count }

/-- Takes elements of the far run. -/
def takeFar (count : Nat) (m : Merge α) : Merge α :=
  { m with done := (m.far.take count).reverse ++ m.done, far := m.far.drop count }

/-- Takes the stretch of the far run that comes before the next near element, and then that element. -/
def farStretch (late : Bool) (takesNear : α → α → Except ε Bool) (m : Merge α) : Except ε (Merge α × Nat) :=
  match m.near with
  | [] => .ok (m, 0)
  | x :: _ => do
    let count ← leap late (fun y => return !(← takesNear x y)) m.far
    let taken := m.takeFar count
    return (if taken.isSettled then taken else taken.takeNear 1, count)

/-- Takes the stretch of the near run that comes before the next far element, and then that element. -/
def nearStretch (late : Bool) (takesNear : α → α → Except ε Bool) (m : Merge α) : Except ε (Merge α × Nat) :=
  match m.far with
  | [] => .ok (m, 0)
  | y :: _ => do
    let count ← leap late (takesNear · y) m.near
    let taken := m.takeNear count
    return (if taken.isSettled then taken else taken.takeFar 1, count)

/-- Takes a stretch of either run; the run that stands first in the list goes first. -/
def bothStretches (late : Bool) (takesNear : α → α → Except ε Bool) (m : Merge α) :
    Except ε (Merge α × Nat × Nat) := do
  let first := if late then nearStretch late takesNear else farStretch late takesNear
  let second := if late then farStretch late takesNear else nearStretch late takesNear
  let (m, count) ← first m
  if m.isSettled then return (m, count, 0)
  let (m, other) ← second m
  return (m, count, other)

/-- Goes on with a merge until the rest needs no comparison. Every round takes an element, so as many rounds are
enough as there are elements. -/
def run (late : Bool) (takesNear : α → α → Except ε Bool) : Nat → Pace → Merge α → Except ε (Merge α)
  | 0, _, m => .ok m
  | fuel + 1, pace, m =>
    match m.near, m.far with
    | x :: _, y :: _ :: _ =>
      match pace with
      | .single nearWins farWins => do
        let near ← takesNear x y
        let m := if near then m.takeNear 1 else m.takeFar 1
        let wins := (if near then nearWins else farWins) + 1
        let pace : Pace :=
          if m.patience ≤ wins then .stretches false else if near then .single wins 0 else .single 0 wins
        run late takesNear fuel pace m
      | .stretches again => do
        let m := if again then { m with patience := max 1 (m.patience - 1) } else m
        let (m, count, other) ← m.bothStretches late takesNear
        if m.isSettled then return m
        if longStretch ≤ count || longStretch ≤ other then run late takesNear fuel (.stretches true) m
        else run late takesNear fuel (.single 0 0) { m with patience := m.patience + 1 }
    | _, _ => .ok m

/-- The merged elements, with the rest behind them. -/
def result (m : Merge α) : List α := m.done.reverse ++ m.near ++ m.far

/-- Merges two runs of which the near one has the element that goes first. -/
def ofRuns (late : Bool) (takesNear : α → α → Except ε Bool) (patience : Nat) (near far : List α) :
    Except ε (Merge α) :=
  run late takesNear (near.length + far.length) (.single 0 0) (takeNear 1 ⟨[], near, far, patience⟩)

end Merge

/-- Merges two runs that stand side by side, and gives the patience for the next merge. -/
def mergeRuns (precedes : α → α → Except ε Bool) (patience : Nat) (left right : List α) :
    Except ε (List α × Nat) :=
  match right with
  | [] => .ok (left, patience)
  | x :: _ => do
    let kept ← leap false (fun y => return !(← precedes x y)) left
    match (left.drop kept).getLast? with
    | none => return (left ++ right, patience)
    | some y =>
      let left' := left.drop kept
      let behind ← leap true (fun x => return !(← precedes x y)) right.reverse
      let right' := right.take (right.length - behind)
      if right'.isEmpty then return (left ++ right, patience)
      if left'.length ≤ right'.length then
        let m ← Merge.ofRuns false precedes patience right' left'
        return (left.take kept ++ m.result ++ right.drop (right.length - behind), m.patience)
      else
        let m ← Merge.ofRuns true (fun x y => precedes y x) patience left'.reverse right'.reverse
        return (left.take kept ++ m.result.reverse ++ right.drop (right.length - behind), m.patience)

end Schemata.Query

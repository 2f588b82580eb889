import Schemata.Table.Program

/-!
# Failures that strike

- A script strikes a program when it fails one of the commands that the program comes to (`Program.struck`). Where it
  strikes none, the run is the one without failures (`run_of_not_struck`).
- A program stops at failures when it asks nothing more after a command that failed, and then ends in one of some ways
  (`Program.Stops`). Where a script strikes it, it ends in one of these (`Stops.value`).
-/

namespace Schemata.Table.Program

variable {σ α β : Type}

/-- Whether a script fails one of the commands that a program asks from a state on. -/
def struck (backend : Backend σ) : Program α → Script → σ → Bool
  | .done _, _, _ => false
  | .ask _ _, [], _ => false
  | .ask _ _, some _ :: _, _ => true
  | .ask c next, none :: rest, s => (next (backend.answer c s).1).struck backend rest (backend.answer c s).2
  | .note _ next, script, s => next.struck backend script s

section Run

variable {backend : Backend σ}

theorem struck_nil (p : Program α) (s : σ) : p.struck backend [] s = false := by
  induction p with
  | done a => rfl
  | ask c next ih => rfl
  | note r next ih => exact ih

/-- **A run that no failure strikes** is the run without failures. -/
theorem run_of_not_struck (p : Program α) {script : Script} {s : σ} (h : p.struck backend script s = false) :
    (p.run (backend.guarded Script.judge) (script, s)).value = (p.run backend s).value ∧
      (p.run (backend.guarded Script.judge) (script, s)).state.2 = (p.run backend s).state := by
  induction p generalizing script s with
  | done a => exact ⟨rfl, rfl⟩
  | ask c next ih =>
    match script, h with
    | [], _ => exact ih _ (struck_nil _ _)
    | none :: rest, h => exact ih _ h
  | note r next ih => exact ih h

end Run

/-! ## Programs that stop -/

/-- The program asks nothing and ends in one of some ways. -/
def EndsIn (P : α → Prop) : Program α → Prop
  | .done a => P a
  | .ask _ _ => False
  | .note _ next => next.EndsIn P

/-- After a command that failed the program asks nothing more and ends in one of some ways. -/
def Stops (P : α → Prop) : Program α → Prop
  | .done _ => True
  | .ask _ next => (∀ trouble, (next (.error trouble)).EndsIn P) ∧ ∀ answer, (next (.ok answer)).Stops P
  | .note _ next => next.Stops P

variable {P : α → Prop} {Q : β → Prop} {p : Program α} {f : α → Program β}

theorem EndsIn.bind (hp : p.EndsIn P) (hf : ∀ a, P a → (f a).EndsIn Q) : (p >>= f).EndsIn Q := by
  induction p with
  | done a => exact hf a hp
  | ask c next ih => exact hp.elim
  | note r next ih => exact ih hp

theorem Stops.bind (hp : p.Stops P) (hfailed : ∀ a, P a → (f a).EndsIn Q) (hf : ∀ a, (f a).Stops Q) :
    (p >>= f).Stops Q := by
  induction p with
  | done a => exact hf a
  | ask c next ih => exact ⟨fun trouble => (hp.1 trouble).bind hfailed, fun answer => ih _ (hp.2 answer)⟩
  | note r next ih => exact ih hp

theorem EndsIn.value (h : p.EndsIn P) (backend : Backend σ) (s : σ) : P (p.run backend s).value := by
  induction p with
  | done a => exact h
  | ask c next ih => exact h.elim
  | note r next ih => exact ih h

/-- A program that asks nothing leaves every state as it is. -/
theorem EndsIn.state (h : p.EndsIn P) (backend : Backend σ) (s : σ) : (p.run backend s).state = s := by
  induction p with
  | done a => rfl
  | ask c next ih => exact h.elim
  | note r next ih => exact ih h

/-- What asks nothing is not struck. -/
theorem EndsIn.not_struck (h : p.EndsIn P) (backend : Backend σ) (script : Script) (s : σ) :
    p.struck backend script s = false := by
  induction p with
  | done a => rfl
  | ask c next ih => exact h.elim
  | note r next ih => exact ih h

/-- What asks nothing at the end makes no difference to whether a script strikes. -/
theorem struck_bind (hf : ∀ a, (f a).EndsIn fun _ => True) (backend : Backend σ) (script : Script) (s : σ) :
    (p >>= f).struck backend script s = p.struck backend script s := by
  induction p generalizing script s with
  | done a => exact (hf a).not_struck _ _ _
  | ask c next ih =>
    match script with
    | [] => rfl
    | some trouble :: rest => rfl
    | none :: rest => exact ih _ _ _
  | note r next ih => exact ih _ _

/-- **A program that stops at failures** ends, where one strikes it, in one of the ways. -/
theorem Stops.value {backend : Backend σ} (h : p.Stops P) {script : Script} {s : σ}
    (hstruck : p.struck backend script s = true) : P (p.run (backend.guarded Script.judge) (script, s)).value := by
  induction p generalizing script s with
  | done a => cases hstruck
  | ask c next ih =>
    match script, hstruck with
    | some trouble :: rest, _ => exact (h.1 trouble).value _ _
    | none :: rest, hstruck =>
      change ((next (backend.answer c s).1).struck backend rest (backend.answer c s).2) = true at hstruck
      change P ((next (backend.answer c s).1).run (backend.guarded Script.judge) (rest, (backend.answer c s).2)).value
      -- the table itself may fail the command, too
      cases hanswer : (backend.answer c s).1 with
      | error trouble => exact (h.1 trouble).value _ _
      | ok answer =>
        rw [hanswer] at hstruck
        exact ih _ (h.2 answer) hstruck
  | note r next ih => exact ih h hstruck

end Schemata.Table.Program

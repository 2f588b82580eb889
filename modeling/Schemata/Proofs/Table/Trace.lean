import Schemata.Table.Program

/-!
# Programs followed command by command

- When other programs use the table in between, each command of a program finds a state of its own. A program follows
  commands and the states that they found when it comes to its value by the answers of these (`Program.Follows`). If a
  single state answers all the commands as they were answered, then an undisturbed run from there comes to the same
  value (`Follows.run_eq`).
- A program asks some commands in turn when it asks them one after the other, no others, and all of them unless it ends
  with an error (`Program.AsksInTurn`). Then it follows a first part of them (`Follows.map_fst_isPrefix`).
-/

namespace Schemata.Table

variable {σ α β ε : Type} {backend : Backend σ} {commands rest : List Command}

/-- The program comes to a value when each command is answered by the state beside it. -/
inductive Program.Follows (backend : Backend σ) : Program α → List (Command × σ) → α → Prop
  | done {a} : Follows backend (.done a) [] a
  | ask {command next state trace a} (h : Follows backend (next (backend.answer command state).1) trace a) :
      Follows backend (.ask command next) ((command, state) :: trace) a
  | note {record next trace a} (h : Follows backend next trace a) : Follows backend (.note record next) trace a

/-- **A state that answers all commands as they were answered** leads to the same value. -/
theorem Program.Follows.run_eq {p : Program α} {trace : List (Command × σ)} {a : α} (h : p.Follows backend trace a)
    {state : σ} (hstate : ∀ x ∈ trace, backend.answer x.1 state = ((backend.answer x.1 x.2).1, state)) :
    (p.run (backend.guarded Script.judge) ([], state)).value = a := by
  induction h with
  | done => rfl
  | @ask command next found trace a h ih =>
    obtain ⟨hfirst, hrest⟩ := List.forall_mem_cons.1 hstate
    have hanswer : (backend.guarded Script.judge).answer command ([], state) =
        ((backend.answer command found).1, [], state) := by
      simp only [Backend.guarded, Script.judge, hfirst]
    rw [run_ask, hanswer]
    exact ih hrest
  | note h ih => exact ih hstate

/-- Where no failure is laid down the next command passes. -/
theorem Script.exists_judge_eq_none {script : Script} (command : Command) (h : ∀ trouble, some trouble ∉ script) :
    ∃ rest, Script.judge command script = (none, rest) ∧ ∀ trouble, some trouble ∉ rest := by
  cases script with
  | nil => exact ⟨[], rfl, h⟩
  | cons decision rest =>
    cases decision with
    | none => exact ⟨rest, rfl, fun trouble hmem => h trouble (List.mem_cons_of_mem _ hmem)⟩
    | some trouble => exact absurd List.mem_cons_self (h trouble)

/-- The program asks these commands one after the other, and all of them unless it ends with an error. -/
def Program.AsksInTurn : Program (Except ε α) → List Command → Prop
  | .done (.ok _), commands => commands = []
  | .done (.error _), _ => True
  | .ask _ _, [] => False
  | .ask command next, first :: rest => command = first ∧ ∀ answer, (next answer).AsksInTurn rest
  | .note _ next, commands => next.AsksInTurn commands

namespace Program

variable {p : Program (Except ε α)} {f : Except ε α → Program (Except ε β)}

/-- Sequences that stop at an error. -/
theorem AsksInTurn.bind (hp : p.AsksInTurn commands) (hok : ∀ a, (f (.ok a)).AsksInTurn rest)
    (herror : ∀ e commands, (f (.error e)).AsksInTurn commands) : (p >>= f).AsksInTurn (commands ++ rest) := by
  induction p generalizing commands with
  | done r =>
    cases r with
    | ok a =>
      cases (hp : commands = [])
      exact hok a
    | error e => exact herror e _
  | ask command next ih =>
    cases commands with
    | nil => exact hp.elim
    | cons first commands => exact ⟨hp.1, fun answer => ih answer (hp.2 answer)⟩
  | note record next ih => exact ih hp

theorem Follows.map_fst_isPrefix {trace : List (Command × σ)} {r : Except ε α} (h : p.Follows backend trace r)
    (hp : p.AsksInTurn commands) : trace.map (·.1) <+: commands := by
  induction h generalizing commands with
  | done => exact List.nil_prefix
  | ask h ih =>
    cases commands with
    | nil => exact hp.elim
    | cons first commands =>
      obtain ⟨rfl, hnext⟩ := hp
      exact List.cons_prefix_cons.2 ⟨rfl, ih (hnext _)⟩
  | note h ih => exact ih hp

end Program

end Schemata.Table

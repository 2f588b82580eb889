import Schemata.Log.Record
import Schemata.Table.Command

/-!
# Programs over a table

A program is a tree: it ends with a value, asks a table one command and goes on from the answer or the failure, or
notes a record. Programs form a monad. A `Backend` answers commands from a state of its own, and `Program.run` runs a
program on it; a run of `p >>= f` is a run of `p` followed by one of `f` (`run_bind`). Since a program stops at each
command, several programs can be run on one table with their commands interleaved.

A backend can be guarded: a judge that looks at each command first, and may let it fail without any effect
(`Backend.guarded`).
-/

namespace Schemata.Table

/-- A computation that asks a table commands and notes records. -/
inductive Program (α : Type) where
  | done (value : α)
  /-- A command, and what follows its answer or failure. -/
  | ask (command : Command) (next : Except Trouble command.Answer → Program α)
  | note (record : Log.Record) (next : Program α)

namespace Program

variable {α β : Type}

/-- Goes on with a second program from the first one's value. -/
def bind : Program α → (α → Program β) → Program β
  | .done a, f => f a
  | .ask c next, f => .ask c fun r => (next r).bind f
  | .note r next, f => .note r (next.bind f)

instance : Monad Program where
  pure := .done
  bind := bind

@[simp] theorem pure_eq (a : α) : (pure a : Program α) = .done a := rfl

@[simp] theorem bind_done (a : α) (f : α → Program β) : (Program.done a >>= f) = f a := rfl

@[simp] theorem bind_ask (c : Command) (next : Except Trouble c.Answer → Program α) (f : α → Program β) :
    (Program.ask c next >>= f) = .ask c fun r => next r >>= f := rfl

@[simp] theorem bind_note (r : Log.Record) (next : Program α) (f : α → Program β) :
    (Program.note r next >>= f) = .note r (next >>= f) := rfl

theorem bind_pure (p : Program α) : p.bind .done = p := by
  induction p with
  | done a => rfl
  | ask c next ih => simp only [bind, ih]
  | note r next ih => simp only [bind, ih]

theorem bind_assoc {γ : Type} (p : Program α) (f : α → Program β) (g : β → Program γ) :
    (p.bind f).bind g = p.bind fun a => (f a).bind g := by
  induction p with
  | done a => rfl
  | ask c next ih => simp only [bind, ih]
  | note r next ih => simp only [bind, ih]

instance : LawfulMonad Program :=
  LawfulMonad.mk' Program (fun p => bind_pure p) (fun _ _ => rfl) (fun p f g => bind_assoc p f g)

end Program

/-! ## Backends -/

/-- Something that answers commands from a state. -/
structure Backend (σ : Type) where
  /-- The answer to a command, or its failure, and the state after it. -/
  answer : (command : Command) → σ → Except Trouble command.Answer × σ

/-- The end of a run. -/
structure Outcome (σ α : Type) where
  value : α
  state : σ
  /-- The records of the run, the first one first. -/
  log : List Log.Record

/-- Runs a program. -/
def Program.run {σ α : Type} (backend : Backend σ) : Program α → σ → Outcome σ α
  | .done a, s => ⟨a, s, []⟩
  | .ask c next, s => (next (backend.answer c s).1).run backend (backend.answer c s).2
  | .note r next, s => { next.run backend s with log := r :: (next.run backend s).log }

section Run

variable {σ α β : Type} (backend : Backend σ)

@[simp] theorem Program.run_done (a : α) (s : σ) : (Program.done a).run backend s = ⟨a, s, []⟩ := rfl

@[simp] theorem Program.run_ask (c : Command) (next : Except Trouble c.Answer → Program α) (s : σ) :
    (Program.ask c next).run backend s = (next (backend.answer c s).1).run backend (backend.answer c s).2 := rfl

@[simp] theorem Program.run_note (r : Log.Record) (next : Program α) (s : σ) :
    (Program.note r next).run backend s = { next.run backend s with log := r :: (next.run backend s).log } := rfl

/-- A run of two programs in a row is a run of the first and then one of the second. -/
theorem Program.run_bind (p : Program α) (f : α → Program β) (s : σ) :
    (p >>= f).run backend s =
      { (f (p.run backend s).value).run backend (p.run backend s).state with
        log := (p.run backend s).log ++ ((f (p.run backend s).value).run backend (p.run backend s).state).log } := by
  induction p generalizing s with
  | done a => rfl
  | ask c next ih => simp only [bind_ask, run_ask, ih]
  | note r next ih => simp only [bind_note, run_note, ih, List.cons_append]

end Run

/-! ## Failures from outside -/

/-- A backend behind a judge, which sees each command first and decides from its own state whether it fails. A command
that fails by the judge's word does not reach the backend. -/
def Backend.guarded {ρ σ : Type} (judge : Command → ρ → Option Trouble × ρ) (backend : Backend σ) : Backend (ρ × σ) where
  answer c s :=
    match judge c s.1 with
    | (some trouble, r) => (.error trouble, (r, s.2))
    | (none, r) => ((backend.answer c s.2).1, (r, (backend.answer c s.2).2))

/-- Failures laid down in advance, one decision per command; none fails after the last decision. -/
abbrev Script := List (Option Trouble)

/-- Takes the next decision. -/
def Script.judge (_ : Command) : Script → Option Trouble × Script
  | [] => (none, [])
  | d :: rest => (d, rest)

end Schemata.Table

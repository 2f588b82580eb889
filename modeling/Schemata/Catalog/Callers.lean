import Schemata.Catalog.Locks
import Schemata.Table.Program

/-!
# Callers side by side

Callers run their programs on one table, one command at a time. A caller that changes an identity asks for that
identity's lock first and gives it back at its end; a caller that only reads goes ahead without one. Any order of steps
is a run (`Callers.run`); a step that cannot be taken, since the lock is held or the caller is through, changes nothing.
-/

namespace Schemata.Catalog

open Table (Backend Program Script)

/-- Where a caller is. -/
inductive Stage where
  | outside
  /-- It is counted as a user of a lock and waits for it. -/
  | waiting (lock : Nat)
  /-- It runs its program, with the lock. -/
  | inside (lock : Nat)
  /-- It has given the lock back and is still counted. -/
  | leaving (lock : Nat)
  /-- It runs its program without a lock. -/
  | free
  | through
  deriving DecidableEq, Repr

/-- Someone with a program to run. -/
structure Caller (α : Type) where
  /-- The identity that the program is about. -/
  identity : Identity
  stage : Stage
  program : Program α
  script : Script

namespace Caller

variable {α : Type}

/-- A caller that needs the lock of its identity. -/
def locking (identity : Identity) (program : Program α) (script : Script := []) : Caller α :=
  ⟨identity, .outside, program, script⟩

/-- A caller that needs no lock. -/
def reading (identity : Identity) (program : Program α) (script : Script := []) : Caller α :=
  ⟨identity, .free, program, script⟩

/-- The value of a caller that is through. -/
def value? (caller : Caller α) : Option α :=
  match caller.stage, caller.program with
  | .through, .done value => some value
  | _, _ => none

end Caller

/-- A table, its locks and all callers. -/
structure Callers (σ α : Type) where
  state : σ
  locks : Locks
  callers : List (Caller α)

namespace Callers

variable {σ α : Type}

/-- All callers before their first step. -/
def start (state : σ) (callers : List (Caller α)) : Callers σ α := ⟨state, .empty, callers⟩

/-- Puts a caller in the place of its number. -/
def setCaller (system : Callers σ α) (number : Nat) (caller : Caller α) : Callers σ α :=
  { system with callers := system.callers.set number caller }

/-- One step inside a program that has not ended: a record, or a command and its answer. -/
def advance (backend : Backend σ) (system : Callers σ α) (number : Nat) (caller : Caller α) : Callers σ α :=
  match caller.program with
  | .done _ => system
  | .note _ next => system.setCaller number { caller with program := next }
  | .ask command next =>
    let answer := (backend.guarded Script.judge).answer command (caller.script, system.state)
    { system with state := answer.2.2 }.setCaller number
      { caller with program := next answer.1, script := answer.2.1 }

/-- The next step of a caller, if it can take one. -/
def step (backend : Backend σ) (system : Callers σ α) (number : Nat) : Option (Callers σ α) :=
  match system.callers[number]? with
  | none => none
  | some caller =>
    match caller.stage with
    | .outside =>
      let entered := system.locks.enter caller.identity
      some ({ system with locks := entered.2 }.setCaller number { caller with stage := .waiting entered.1 })
    | .waiting lock =>
      (system.locks.acquire lock number).map fun locks =>
        { system with locks }.setCaller number { caller with stage := .inside lock }
    | .inside lock =>
      match caller.program with
      | .done _ =>
        some ({ system with locks := system.locks.release lock }.setCaller number
          { caller with stage := .leaving lock })
      | _ => some (system.advance backend number caller)
    | .leaving lock =>
      some ({ system with locks := system.locks.leave lock caller.identity }.setCaller number
        { caller with stage := .through })
    | .free =>
      match caller.program with
      | .done _ => some (system.setCaller number { caller with stage := .through })
      | _ => some (system.advance backend number caller)
    | .through => none

/-- Takes the steps of a schedule, which names callers in the order of their steps. -/
def run (backend : Backend σ) (schedule : List Nat) (system : Callers σ α) : Callers σ α :=
  schedule.foldl (fun system number => (system.step backend number).getD system) system

/-- The numbers of callers that are not through, as many as there are workers. -/
def active (workers : Nat) (system : Callers σ α) : List Nat :=
  ((List.range system.callers.length).filter fun number =>
    (system.callers[number]?.map (·.stage)) != some .through).take workers

/-- Lets a number of workers take turns on the callers, for a number of rounds. -/
def takeTurns (backend : Backend σ) (workers : Nat) : Nat → Callers σ α → Callers σ α
  | 0, system => system
  | rounds + 1, system => takeTurns backend workers rounds (system.run backend (system.active workers))

end Callers

end Schemata.Catalog

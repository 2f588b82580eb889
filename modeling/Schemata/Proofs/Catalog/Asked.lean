import Mathlib.Data.List.Chain
import Mathlib.Data.List.DropRight
import Schemata.Proofs.Catalog.Exclusion
import Schemata.Proofs.Table.Footprint
import Schemata.Proofs.Table.Trace

/-!
# The commands of a run

Of callers that run side by side the commands that reach the table are listed in their order, each with the state that
it finds (`Callers.asked`).

- Each command finds the state that the one before it left (`isChain_asked`).
- A caller without a lock and without failures follows its own commands in the list (`follows_asked`).
- `Asked.during` is the part of a list from the first command of a caller to its last one.
-/

namespace Schemata.Catalog

open Table (Backend Command Program Script)

/-- A command that reached the table: who asked it, and the state that it found. -/
structure Asked (σ : Type) where
  caller : Nat
  command : Command
  before : σ

/-- A command finds the state that another one left. -/
def Asked.Leaves {σ : Type} (backend : Backend σ) (e e' : Asked σ) : Prop :=
  e'.before = (backend.answer e.command e.before).2

/-- The part of a run from the first command of a caller to its last one. -/
def Asked.during {σ : Type} (number : Nat) (asked : List (Asked σ)) : List (Asked σ) :=
  (asked.dropWhile (·.caller ≠ number)).rdropWhile (·.caller ≠ number)

/-- The command of a caller's next step, if it reaches the table. -/
def Caller.command? {α : Type} (caller : Caller α) : Option Command :=
  match caller.program with
  | .ask command _ =>
    if caller.stage.runs && (Script.judge command caller.script).1.isNone then some command else none
  | .done _ | .note _ _ => none

namespace Callers

variable {σ α : Type} {backend : Backend σ}

/-- The commands of a run that reach the table, in their order. -/
def asked (backend : Backend σ) : List Nat → Callers σ α → List (Asked σ)
  | [], _ => []
  | number :: rest, system =>
    (((system.callers[number]?).bind Caller.command?).map fun command =>
        (⟨number, command, system.state⟩ : Asked σ)).toList ++
      asked backend rest ((system.step backend number).getD system)

variable {system : Callers σ α} {k n : Nat} {caller : Caller α}

/-- A step of another caller leaves a caller as it is. -/
theorem getElem?_step_of_ne (backend : Backend σ) (system : Callers σ α) (h : n ≠ k) :
    ((system.step backend n).getD system).callers[k]? = system.callers[k]? := by
  cases hstep : system.step backend n with
  | none => rfl
  | some system' =>
    obtain ⟨caller, caller', state, locks, -, -, rfl⟩ := exists_moves hstep
    exact List.getElem?_set_ne h

/-- **A reader without failures follows what its commands find.** -/
theorem follows_asked (system : Callers σ α) (schedule : List Nat) (hk : system.callers[k]? = some caller)
    (hstage : caller.stage = .free ∨ caller.stage = .through ∧ ∃ a, caller.program = .done a)
    (hcalm : ∀ trouble, some trouble ∉ caller.script) {a : α}
    (ha : (system.run backend schedule).callers[k]?.bind Caller.value? = some a) :
    caller.program.Follows backend
      (((system.asked backend schedule).filter (·.caller = k)).map fun e => (e.command, e.before)) a := by
  induction schedule generalizing system caller with
  | nil =>
    rw [run, List.foldl_nil, hk] at ha
    obtain ⟨identity, stage, program, script⟩ := caller
    rcases hstage with rfl | ⟨rfl, v, rfl⟩
    · cases ha
    · cases ha
      exact .done
  | cons n rest ih =>
    rw [run, List.foldl_cons] at ha
    rcases eq_or_ne n k with rfl | hne
    · obtain ⟨identity, stage, program, script⟩ := caller
      have hlt : n < system.callers.length := (List.getElem?_eq_some_iff.1 hk).1
      rcases hstage with rfl | ⟨rfl, v, rfl⟩
      · cases program with
        | done v =>
          obtain ⟨after, hstep, hset⟩ := exists_step_of_moves hk (Moves.ends : system.Moves backend n _ _ _ _)
          rw [hstep] at ha
          simpa [asked, hk, hstep, Caller.command?] using ih after hset (.inr ⟨rfl, v, rfl⟩) hcalm ha
        | note record next =>
          obtain ⟨after, hstep, hset⟩ := exists_step_of_moves hk (Moves.notes rfl : system.Moves backend n _ _ _ _)
          rw [hstep] at ha
          have hrest := ih after hset (.inl rfl) hcalm ha
          simpa [asked, hk, hstep, Caller.command?] using Program.Follows.note hrest
        | ask command next =>
          obtain ⟨script', hjudge, hcalm'⟩ := Script.exists_judge_eq_none command hcalm
          obtain ⟨after, hstep, hset⟩ := exists_step_of_moves hk (Moves.asks rfl : system.Moves backend n _ _ _ _)
          rw [hstep] at ha
          rw [Backend.guarded_answer_pass hjudge] at hset
          have hrest := ih after hset (.inl rfl) hcalm' ha
          simpa [asked, hk, hstep, Caller.command?, Stage.runs, hjudge] using Program.Follows.ask hrest
      · have hstep : system.step backend n = none := by simp only [step, hk]
        rw [hstep] at ha
        simpa [asked, hk, hstep, Caller.command?] using ih _ hk (.inr ⟨rfl, v, rfl⟩) hcalm ha
    · rw [← getElem?_step_of_ne backend system hne] at hk
      have hrest := ih _ hk hstage hcalm ha
      rw [asked, List.filter_append, List.filter_eq_nil_iff.2, List.nil_append]
      · exact hrest
      · simp only [Option.mem_toList, Option.map_eq_some_iff, decide_eq_true_eq]
        rintro _ ⟨_, -, rfl⟩
        exact hne

/-- A caller that can take no step has no command to ask. -/
theorem command?_of_step_eq_none (h : system.step backend n = none) (hn : system.callers[n]? = some caller) :
    caller.command? = none := by
  obtain ⟨identity, stage, program, script⟩ := caller
  cases program with
  | ask command next =>
    cases stage with
    | inside lock => simp [step, hn] at h
    | free => simp [step, hn] at h
    | _ => rfl
  | _ => rfl

/-- A step changes the table by the command that it asks, if that reaches the table. -/
theorem state_step : ((system.step backend n).getD system).state =
    ((system.callers[n]?.bind Caller.command?).map fun command => (backend.answer command system.state).2).getD
      system.state := by
  cases hstep : system.step backend n with
  | none =>
    cases hn : system.callers[n]? with
    | none => rfl
    | some caller => rw [Option.bind_some, command?_of_step_eq_none hstep hn]; rfl
  | some system' =>
    obtain ⟨caller, caller', state, locks, hn, hmoves, rfl⟩ := exists_moves hstep
    rw [hn, Option.bind_some]
    cases hmoves with
    | @asks identity stage command next script hruns =>
      rcases hjudge : Script.judge command script with ⟨_ | trouble, script'⟩
      · simp [Caller.command?, hruns, hjudge, Backend.guarded_answer_pass hjudge]
      · simp [Caller.command?, hjudge, Backend.guarded_answer_fail hjudge]
    | @enters identity program script => cases program <;> rfl
    | @acquires identity lock program script => cases program <;> rfl
    | @leaves identity lock program script => cases program <;> rfl
    | _ => rfl

/-- What every command keeps holds of all states that commands find. -/
theorem asked_forall {P : σ → Prop} (hanswer : ∀ command state, P state → P (backend.answer command state).2)
    (schedule : List Nat) (hstate : P system.state) : ∀ e ∈ system.asked backend schedule, P e.before := by
  induction schedule generalizing system with
  | nil => nofun
  | cons n rest ih =>
    intro e he
    rcases List.mem_append.1 he with he | he
    · obtain ⟨command, -, rfl⟩ := Option.map_eq_some_iff.1 (Option.mem_toList.1 he)
      exact hstate
    · refine ih ?_ e he
      rw [state_step]
      cases system.callers[n]?.bind Caller.command? with
      | none => exact hstate
      | some command => exact hanswer command _ hstate

/-- **Each command finds the state that the one before it left.** -/
theorem isChain_asked (backend : Backend σ) (system : Callers σ α) (schedule : List Nat) :
    (system.asked backend schedule).IsChain (Asked.Leaves backend) ∧
    ∀ e ∈ (system.asked backend schedule).head?, e.before = system.state := by
  induction schedule generalizing system with
  | nil => exact ⟨.nil, nofun⟩
  | cons n rest ih =>
    obtain ⟨hchain, hhead⟩ := ih ((system.step backend n).getD system)
    rw [state_step] at hhead
    rw [asked]
    cases hcommand : system.callers[n]?.bind Caller.command? with
    | none =>
      rw [hcommand] at hhead
      exact ⟨hchain, hhead⟩
    | some command =>
      rw [hcommand] at hhead
      refine ⟨hchain.cons hhead, fun e he => ?_⟩
      cases he
      rfl

end Callers

/-! ## From the first command to the last one -/

namespace Asked

variable {σ : Type} {k : Nat} {asked earlier later : List (Asked σ)} {e e' : Asked σ}

theorem dropWhile_append_cons (hearlier : ∀ x ∈ earlier, x.caller ≠ k) (he : e.caller = k) :
    (earlier ++ e :: later).dropWhile (·.caller ≠ k) = e :: later := by
  rw [List.dropWhile_append_of_pos fun x hx => by simpa using hearlier x hx, List.dropWhile_cons_of_neg (by simpa)]

theorem rdropWhile_append (earlier : List (Asked σ)) (he : e.caller = k) (hlater : later.filter (·.caller = k) = []) :
    (earlier ++ [e] ++ later).rdropWhile (·.caller ≠ k) = earlier ++ [e] := by
  have hall : ∀ x ∈ later.reverse, decide (x.caller ≠ k) = true := fun x hx => by
    simpa using List.filter_eq_nil_iff.1 hlater x (List.mem_reverse.1 hx)
  rw [List.rdropWhile, List.reverse_append, List.dropWhile_append_of_pos hall, ← List.rdropWhile,
    List.rdropWhile_concat_neg _ _ _ (by simpa)]

/-- It is a part of the list. -/
theorem during_isInfix : during k asked <:+: asked := by
  have hfront := List.rdropWhile_prefix (·.caller ≠ k) (asked.dropWhile (·.caller ≠ k))
  exact hfront.isInfix.trans (List.dropWhile_suffix _).isInfix

/-- A caller that asked one command. -/
theorem during_of_filter_eq_singleton (h : asked.filter (·.caller = k) = [e]) : during k asked = [e] := by
  obtain ⟨earlier, later, rfl, hearlier, he, hlater⟩ := List.filter_eq_cons_iff.1 h
  rw [during, dropWhile_append_cons (by simpa using hearlier) (by simpa using he)]
  exact rdropWhile_append [] (by simpa using he) hlater

/-- A caller that asked two commands. -/
theorem during_of_filter_eq_pair (h : asked.filter (·.caller = k) = [e, e']) :
    ∃ between, during k asked = e :: between ++ [e'] := by
  obtain ⟨earlier, rest, rfl, hearlier, he, hrest⟩ := List.filter_eq_cons_iff.1 h
  obtain ⟨between, later, rfl, -, he', hlater⟩ := List.filter_eq_cons_iff.1 hrest
  refine ⟨between, ?_⟩
  rw [during, dropWhile_append_cons (by simpa using hearlier) (by simpa using he)]
  simpa using rdropWhile_append (e :: between) (by simpa using he') hlater

end Asked

end Schemata.Catalog

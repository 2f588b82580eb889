import Schemata.Catalog.Registry
import Schemata.Proofs.Table.Ends

/-!
# Where a work can end

`x.Ends may s r t`: from contents `s` the work `x` can end with the value or failure `r` at contents `t`
(`Program.Ends`). Each way to put works together has one equation: sequences end where the first part fails or where
the second part ends (`ends_bind`), and a table's failure inside an activity ends as a failure of the activity
(`ends_within`).
-/

namespace Schemata.Catalog

open Table (Contents Command Trouble Program)

/-- A failure as it is told by the activity in which it happened. -/
def Failure.during (activity : Activity) (identity : Identity) : Failure → Failure
  | .table trouble => .registry activity identity trouble
  | failure => failure

namespace Work

variable {α β : Type} {may : Trouble → Prop} {s t : Contents}

/-- The ends that a work can come to. -/
def Ends (may : Trouble → Prop) (x : Work α) (s : Contents) (r : Except Failure α) (t : Contents) : Prop :=
  Program.Ends may x.run s r t

/-! ## Ends -/

theorem ends_pure {a : α} {r : Except Failure α} : (pure a : Work α).Ends may s r t ↔ r = .ok a ∧ t = s := Iff.rfl

theorem ends_throw {failure : Failure} {r : Except Failure α} :
    (throw failure : Work α).Ends may s r t ↔ r = .error failure ∧ t = s := Iff.rfl

theorem ends_noteDone {message : String} {identity : Identity} {extra : Json.Fields} {r : Except Failure Unit} :
    (noteDone message identity extra).Ends may s r t ↔ r = .ok () ∧ t = s := Iff.rfl

theorem ends_noteDone_bind {message : String} {identity : Identity} {extra : Json.Fields} {f : Unit → Work β}
    {r : Except Failure β} : (noteDone message identity extra >>= f).Ends may s r t ↔ (f ()).Ends may s r t := Iff.rfl

theorem ends_ask {command : Command} {r : Except Failure command.Answer} :
    (ask command).Ends may s r t ↔
      (∃ trouble, may trouble ∧ r = .error (.table trouble) ∧ t = s) ∨
        r = .ok (s.answer command).1 ∧ t = (s.answer command).2 := Iff.rfl

/-- **Sequences.** -/
theorem ends_bind {x : Work α} {f : α → Work β} {r : Except Failure β} :
    (x >>= f).Ends may s r t ↔
      (∃ failure, x.Ends may s (.error failure) t ∧ r = .error failure) ∨
        ∃ a u, x.Ends may s (.ok a) u ∧ (f a).Ends may u r t := by
  have h : (x >>= f).Ends may s r t ↔ ∃ a u, Program.Ends may x.run s a u ∧
      (ExceptT.bindCont f a).Ends may u r t := Program.ends_bind
  rw [h]
  constructor
  · rintro ⟨a | a, u, hx, hf⟩
    · obtain ⟨rfl, rfl⟩ := hf
      exact Or.inl ⟨a, hx, rfl⟩
    · exact Or.inr ⟨a, u, hx, hf⟩
  · rintro (⟨failure, hx, rfl⟩ | ⟨a, u, hx, hf⟩)
    · exact ⟨.error failure, t, hx, rfl, rfl⟩
    · exact ⟨.ok a, u, hx, hf⟩

/-- **Failures that are handled** by something that asks nothing. -/
theorem ends_tryCatch {x : Work α} {handler : Failure → Work α} {told : Failure → Except Failure α}
    (hhandler : ∀ failure s r t, (handler failure).Ends may s r t ↔ r = told failure ∧ t = s) {r : Except Failure α} :
    (tryCatchThe Failure x handler).Ends may s r t ↔ ∃ r', x.Ends may s r' t ∧ r = r'.tryCatch told := by
  have hprogram : (tryCatchThe Failure x handler).Ends may s r t ↔
      Program.Ends may (x.run >>= fun | .ok a => pure (.ok a) | .error failure => (handler failure).run) s r t := by
    have hrun : (tryCatchThe Failure x handler).run =
        x.run >>= fun | .ok a => pure (.ok a) | .error failure => (handler failure).run := by
      change x.run >>= _ = _
      congr 1
      funext r'
      cases r' <;> rfl
    rw [Ends, hrun]
  rw [hprogram, Program.ends_bind]
  constructor
  · rintro ⟨r', u, hx, hr⟩
    refine ⟨r', ?_⟩
    cases r' with
    | ok a =>
      obtain ⟨rfl, rfl⟩ := hr
      exact ⟨hx, rfl⟩
    | error failure =>
      obtain ⟨rfl, rfl⟩ := (hhandler ..).1 hr
      exact ⟨hx, rfl⟩
  · rintro ⟨r', hx, rfl⟩
    refine ⟨r', t, hx, ?_⟩
    cases r' with
    | ok a => exact ⟨rfl, rfl⟩
    | error failure => exact (hhandler ..).2 ⟨rfl, rfl⟩

/-- **Activities.** -/
theorem ends_within {activity : Activity} {identity : Identity} {x : Work α} {r : Except Failure α} :
    (within activity identity x).Ends may s r t ↔
      ∃ r', x.Ends may s r' t ∧ r = r'.mapError (·.during activity identity) := by
  have hmap : ∀ r' : Except Failure α,
      r'.mapError (·.during activity identity) = r'.tryCatch fun failure => .error (failure.during activity identity) :=
    fun r' => by cases r' <;> rfl
  simp only [hmap]
  exact ends_tryCatch fun failure s r t => by cases failure <;> exact Iff.rfl

/-- What only makes something of a value changes neither contents nor failures. -/
theorem ends_bind_pure {x : Work α} {f : α → Work β} {g : α → β}
    (hf : ∀ a s r t, (f a).Ends may s r t ↔ r = .ok (g a) ∧ t = s) {r : Except Failure β} :
    (x >>= f).Ends may s r t ↔ ∃ r', x.Ends may s r' t ∧ r = r'.map g := by
  rw [ends_bind]
  constructor
  · rintro (⟨failure, hx, rfl⟩ | ⟨a, u, hx, h⟩)
    · exact ⟨_, hx, rfl⟩
    · obtain ⟨rfl, rfl⟩ := (hf ..).1 h
      exact ⟨_, hx, rfl⟩
  · rintro ⟨failure | a, hx, rfl⟩
    · exact Or.inl ⟨failure, hx, rfl⟩
    · exact Or.inr ⟨a, t, hx, (hf ..).2 ⟨rfl, rfl⟩⟩

/-- A run on a table behind a script comes to an end of the work, and the table then holds what is left. -/
theorem ends_run {σ : Type} {backend : Table.Backend σ} {holds : σ → Contents → Prop} (hb : backend.Represents holds)
    (x : Work α) (script : Table.Script) {state : σ} (hs : holds state s) :
    ∃ t, holds (x.run.run (backend.guarded Table.Script.judge) (script, state)).state.2 t ∧
      x.Ends (fun trouble => some trouble ∈ script) s
        (x.run.run (backend.guarded Table.Script.judge) (script, state)).value t :=
  Program.ends_run_guarded hb x.run (fun _ h => h) hs

/-- Without a script it is an end that no failure leads to. -/
theorem ends_run_calm {σ : Type} {backend : Table.Backend σ} {holds : σ → Contents → Prop}
    (hb : backend.Represents holds) (x : Work α) {state : σ} (hs : holds state s) :
    ∃ t, holds (x.run.run backend state).state t ∧ x.Ends Table.Calm s (x.run.run backend state).value t :=
  Program.ends_run hb x.run hs

-- From here on ends are known by these equations only: a program is not to be unfolded where one is looked at.
attribute [irreducible] Ends

end Work

end Schemata.Catalog

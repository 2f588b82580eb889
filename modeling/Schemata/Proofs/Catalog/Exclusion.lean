import Schemata.Catalog.Callers
import Schemata.Proofs.Table.Holding

/-!
# Callers exclude each other

- The steps of a caller are seven moves (`Callers.Moves`, `exists_moves`, `exists_step_of_moves`).
- Each caller that uses a lock uses the one that the table has for its identity, the users of each lock in the table are
  counted, and who is inside holds the lock (`Guarded`). Every move keeps this (`Guarded.moves`), and so does every run
  (`Guarded.run`).
- So of the callers with one identity at most one is inside (`Guarded.exclusive`).
-/

namespace Schemata.Catalog

open Table (Backend Program Script)

/-! ## Moves -/

/-- The lock that a caller is counted as a user of. -/
def Stage.lock? : Stage → Option Nat
  | .waiting lock | .inside lock | .leaving lock => some lock
  | .outside | .free | .through => none

/-- Whether a caller runs its program. -/
def Stage.runs : Stage → Bool
  | .inside _ | .free => true
  | .outside | .waiting _ | .leaving _ | .through => false

namespace Callers

variable {σ α : Type} {backend : Backend σ} {system system' : Callers σ α} {number : Nat}

/-- What a step of a caller can do: a caller that was like the first becomes like the second, and the table and the
locks become the given ones. -/
inductive Moves (backend : Backend σ) (system : Callers σ α) (number : Nat) :
    Caller α → Caller α → σ → Locks → Prop
  | enters {identity program script} :
      Moves backend system number ⟨identity, .outside, program, script⟩
        ⟨identity, .waiting (system.locks.enter identity).1, program, script⟩
        system.state (system.locks.enter identity).2
  | acquires {identity lock program script locks} (h : system.locks.acquire lock number = some locks) :
      Moves backend system number ⟨identity, .waiting lock, program, script⟩
        ⟨identity, .inside lock, program, script⟩ system.state locks
  | asks {identity stage command next script} (h : stage.runs) :
      Moves backend system number ⟨identity, stage, .ask command next, script⟩
        ⟨identity, stage, next ((backend.guarded Script.judge).answer command (script, system.state)).1,
          ((backend.guarded Script.judge).answer command (script, system.state)).2.1⟩
        ((backend.guarded Script.judge).answer command (script, system.state)).2.2 system.locks
  | notes {identity stage record next script} (h : stage.runs) :
      Moves backend system number ⟨identity, stage, .note record next, script⟩ ⟨identity, stage, next, script⟩
        system.state system.locks
  | releases {identity lock value script} :
      Moves backend system number ⟨identity, .inside lock, .done value, script⟩
        ⟨identity, .leaving lock, .done value, script⟩ system.state (system.locks.release lock)
  | leaves {identity lock program script} :
      Moves backend system number ⟨identity, .leaving lock, program, script⟩ ⟨identity, .through, program, script⟩
        system.state (system.locks.leave lock identity)
  | ends {identity value script} :
      Moves backend system number ⟨identity, .free, .done value, script⟩ ⟨identity, .through, .done value, script⟩
        system.state system.locks

/-- **Every step is a move** of the caller with the number. -/
theorem exists_moves (h : system.step backend number = some system') :
    ∃ caller caller' state locks, system.callers[number]? = some caller ∧
      system.Moves backend number caller caller' state locks ∧
        system' = ⟨state, locks, system.callers.set number caller'⟩ := by
  rw [step.eq_def] at h
  cases hcaller : system.callers[number]? with
  | none => simp only [hcaller] at h; cases h
  | some caller =>
    obtain ⟨identity, stage, program, script⟩ := caller
    simp only [hcaller] at h
    cases stage with
    | outside =>
      cases h
      exact ⟨_, _, _, _, rfl, .enters, rfl⟩
    | waiting lock =>
      obtain ⟨locks, hlocks, rfl⟩ := Option.map_eq_some_iff.1 h
      exact ⟨_, _, _, _, rfl, .acquires hlocks, rfl⟩
    | inside lock =>
      cases program with
      | done value => cases h; exact ⟨_, _, _, _, rfl, .releases, rfl⟩
      | ask command next => cases h; exact ⟨_, _, _, _, rfl, .asks rfl, rfl⟩
      | note record next => cases h; exact ⟨_, _, _, _, rfl, .notes rfl, rfl⟩
    | leaving lock =>
      cases h
      exact ⟨_, _, _, _, rfl, .leaves, rfl⟩
    | free =>
      cases program with
      | done value => cases h; exact ⟨_, _, _, _, rfl, .ends, rfl⟩
      | ask command next => cases h; exact ⟨_, _, _, _, rfl, .asks rfl, rfl⟩
      | note record next => cases h; exact ⟨_, _, _, _, rfl, .notes rfl, rfl⟩
    | through => cases h

/-- The callers after a move: the one with the number is new, the others are as they were. -/
theorem getElem?_set_eq_some_iff {callers : List (Caller α)} {caller caller' other : Caller α} {n : Nat}
    (h : callers[number]? = some caller) :
    (callers.set number caller')[n]? = some other ↔
      n = number ∧ other = caller' ∨ n ≠ number ∧ callers[n]? = some other := by
  have hlt : number < callers.length := (List.getElem?_eq_some_iff.1 h).1
  rcases eq_or_ne n number with rfl | hne
  · simp [List.getElem?_set_self hlt, eq_comm]
  · simp [List.getElem?_set_ne hne.symm, hne]

/-- A move is a step that the caller can take. -/
theorem exists_step_of_moves {caller caller' : Caller α} {state : σ} {locks : Locks}
    (hn : system.callers[number]? = some caller) (h : system.Moves backend number caller caller' state locks) :
    ∃ after, system.step backend number = some after ∧ after.callers[number]? = some caller' := by
  refine ⟨⟨state, locks, system.callers.set number caller'⟩, ?_, (getElem?_set_eq_some_iff hn).2 (.inl ⟨rfl, rfl⟩)⟩
  cases h with
  | enters => simp only [step, hn, setCaller]
  | acquires hacquire => simp only [step, hn, hacquire, setCaller, Option.map_some]
  | @asks _ stage _ _ _ hruns =>
    cases stage with
    | inside lock => simp only [step, hn, advance, setCaller]
    | free => simp only [step, hn, advance, setCaller]
    | _ => cases hruns
  | @notes _ stage _ _ _ hruns =>
    cases stage with
    | inside lock => simp only [step, hn, advance, setCaller]
    | free => simp only [step, hn, advance, setCaller]
    | _ => cases hruns
  | releases => simp only [step, hn, setCaller]
  | leaves => simp only [step, hn, setCaller]
  | ends => simp only [step, hn, setCaller]

end Callers

/-! ## Users and holders -/

namespace Callers

variable {α : Type} {callers : List (Caller α)} {caller caller' : Caller α} {number lock : Nat}

/-- How many callers are counted as users of a lock. -/
def users (callers : List (Caller α)) (lock : Nat) : Nat := callers.countP (·.stage.lock? = some lock)

/-- A move changes the count by the caller that moves. -/
theorem users_set (h : callers[number]? = some caller) (caller' : Caller α) (lock : Nat) :
    users (callers.set number caller') lock + (if caller.stage.lock? = some lock then 1 else 0) =
      users callers lock + if caller'.stage.lock? = some lock then 1 else 0 := by
  obtain ⟨hlt, rfl⟩ := List.getElem?_eq_some_iff.1 h
  simp only [users, List.countP_set hlt, decide_eq_true_eq]
  by_cases hlock : callers[number].stage.lock? = some lock
  · have hpos : 0 < callers.countP (·.stage.lock? = some lock) :=
      List.countP_pos_iff.2 ⟨_, List.getElem_mem hlt, by simpa using hlock⟩
    rw [if_pos hlock]
    omega
  · rw [if_neg hlock]
    omega

/-- A move between two stages of the same use changes no count. -/
theorem users_set_of_eq (h : callers[number]? = some caller) (hlock : caller'.stage.lock? = caller.stage.lock?) :
    users (callers.set number caller') lock = users callers lock := by
  have hcount := users_set h caller' lock
  rw [hlock] at hcount
  exact Nat.add_right_cancel hcount

theorem users_pos (h : callers[number]? = some caller) (hlock : caller.stage.lock? = some lock) :
    0 < users callers lock :=
  List.countP_pos_iff.2 ⟨caller, List.mem_of_getElem? h, by simpa using hlock⟩

end Callers

/-- The locks know their users and their holders. -/
structure Guarded {α : Type} (locks : Locks) (callers : List (Caller α)) : Prop where
  /-- A caller uses the lock that the table has for its identity. -/
  entered : ∀ {n lock : Nat} {caller : Caller α}, callers[n]? = some caller → caller.stage.lock? = some lock →
    locks.table.lookup caller.identity = some lock
  /-- The users of a lock in the table are counted. -/
  counted : ∀ {identity : Identity} {lock : Nat}, locks.table.lookup identity = some lock →
    ∃ holder, locks.made[lock]? = some ⟨Callers.users callers lock, holder⟩
  /-- Who is inside holds the lock. -/
  held : ∀ {n lock : Nat} {caller : Caller α}, callers[n]? = some caller → caller.stage = .inside lock →
    ∃ users, locks.made[lock]? = some ⟨users, some n⟩

namespace Guarded

open Schemata.Catalog.Callers

variable {σ α : Type} {locks locks' : Locks} {callers : List (Caller α)} {caller caller' other : Caller α}
  {number lock m n : Nat} {holder : Option Nat}

/-- **Of the callers with one identity at most one is inside.** -/
theorem exclusive (h : Guarded locks callers) (hm : callers[m]? = some caller) (hn : callers[n]? = some other)
    (hidentity : caller.identity = other.identity) {l k : Nat} (hcaller : caller.stage = .inside l)
    (hother : other.stage = .inside k) : m = n := by
  have hl := h.entered hm (show caller.stage.lock? = some l by rw [hcaller]; rfl)
  have hk := h.entered hn (show other.stage.lock? = some k by rw [hother]; rfl)
  rw [hidentity, hk] at hl
  cases hl
  obtain ⟨_, hmade⟩ := h.held hm hcaller
  obtain ⟨_, hmade'⟩ := h.held hn hother
  rw [hmade] at hmade'
  cases hmade'
  rfl

theorem start (callers : List (Caller α)) (h : ∀ caller ∈ callers, caller.stage.lock? = none) :
    Guarded .empty callers where
  entered hn hlock := by
    rw [h _ (List.mem_of_getElem? hn)] at hlock
    cases hlock
  counted hlookup := by cases hlookup
  held hn hinside := by
    have := h _ (List.mem_of_getElem? hn)
    rw [hinside] at this
    cases this

section Keep

variable (h : Guarded locks callers) (hn : callers[number]? = some caller)
  (hidentity : caller'.identity = caller.identity)
include h hn hidentity

/-- Nobody uses another lock after a move between two stages of the same use. -/
theorem entered_set (hlock : caller'.stage.lock? = caller.stage.lock?)
    (hm : (callers.set number caller')[m]? = some other) (hother : other.stage.lock? = some lock) :
    locks.table.lookup other.identity = some lock := by
  rcases (getElem?_set_eq_some_iff hn).1 hm with ⟨rfl, rfl⟩ | ⟨-, hm⟩
  · rw [hidentity]
    exact h.entered hn (hlock ▸ hother)
  · exact h.entered hm hother

/-- A move that leaves the locks and the caller's use of them. -/
theorem keep (hlock : caller'.stage.lock? = caller.stage.lock?)
    (hinside : ∀ l, caller'.stage = .inside l → caller.stage = .inside l) :
    Guarded locks (callers.set number caller') where
  entered := h.entered_set hn hidentity hlock
  counted hlookup := by
    rw [users_set_of_eq hn hlock]
    exact h.counted hlookup
  held hm hl := by
    rcases (getElem?_set_eq_some_iff hn).1 hm with ⟨rfl, rfl⟩ | ⟨-, hm⟩
    · exact h.held hn (hinside _ hl)
    · exact h.held hm hl

/-- The lock that a caller uses gets another holder, or none, while nobody else is inside it. -/
theorem rehold (huses : caller.stage.lock? = some lock) (hlock : caller'.stage.lock? = some lock)
    (hinside : ∀ l, caller'.stage = .inside l → holder = some number)
    (hothers : ∀ m other, m ≠ number → callers[m]? = some other → other.stage ≠ .inside lock) :
    Guarded (locks.update lock fun l => { l with holder }) (callers.set number caller') where
  entered := h.entered_set hn hidentity (hlock.trans huses.symm)
  counted {_ k} hlookup := by
    obtain ⟨holder', hmade⟩ := h.counted hlookup
    rw [users_set_of_eq hn (hlock.trans huses.symm), Locks.update, List.getElem?_modify, hmade]
    by_cases hk : lock = k
    · exact ⟨holder, by simp [hk]⟩
    · exact ⟨holder', by simp [hk]⟩
  held {m k other} hm hl := by
    rw [Locks.update, List.getElem?_modify]
    rcases (getElem?_set_eq_some_iff hn).1 hm with ⟨rfl, rfl⟩ | ⟨hne, hm⟩
    · rw [hl] at hlock
      cases hlock
      obtain ⟨holder', hmade⟩ := h.counted (h.entered hn huses)
      exact ⟨_, by simp [hmade, hinside _ hl]; rfl⟩
    · obtain ⟨users, hmade⟩ := h.held hm hl
      have hk : lock ≠ k := fun hk => hothers m other hne hm (hk ▸ hl)
      exact ⟨users, by simp [hmade, hk]⟩

end Keep

section Enter

variable (h : Guarded locks callers) (hn : callers[number]? = some caller)
include h

/-- A lock in the table was made. -/
theorem lt_of_lookup {identity : Identity} (hlookup : locks.table.lookup identity = some lock) :
    lock < locks.made.length := by
  obtain ⟨_, hmade⟩ := h.counted hlookup
  exact (List.getElem?_eq_some_iff.1 hmade).1

/-- Nobody uses a lock that is not made yet. -/
theorem users_eq_zero : users callers locks.made.length = 0 := by
  rw [users, List.countP_eq_zero]
  intro other hother hlock
  obtain ⟨m, hm⟩ := List.getElem?_of_mem hother
  exact absurd (h.lt_of_lookup (h.entered hm (of_decide_eq_true hlock))) (Nat.lt_irrefl _)

include hn

/-- A caller from outside is counted as a user of the lock that the table has. -/
theorem enter_found {identity : Identity} (hfound : locks.table.lookup identity = some lock)
    (houtside : caller.stage.lock? = none) (hidentity : caller'.identity = identity)
    (hwaits : caller'.stage = .waiting lock) :
    Guarded (locks.update lock fun l => { l with users := l.users + 1 }) (callers.set number caller') where
  entered {m k other} hm hother := by
    rcases (getElem?_set_eq_some_iff hn).1 hm with ⟨rfl, rfl⟩ | ⟨-, hm⟩
    · rw [hwaits] at hother
      cases hother
      rw [hidentity]
      exact hfound
    · exact h.entered hm hother
  counted {j k} hlookup := by
    obtain ⟨holder, hmade⟩ := h.counted hlookup
    have hcount := users_set hn caller' k
    rw [houtside, hwaits, if_neg nofun, Nat.add_zero] at hcount
    refine ⟨holder, ?_⟩
    rw [Locks.update, List.getElem?_modify, hmade, hcount]
    by_cases hk : lock = k <;> simp [hk, Stage.lock?]
  held {m k other} hm hother := by
    rcases (getElem?_set_eq_some_iff hn).1 hm with ⟨rfl, rfl⟩ | ⟨-, hm⟩
    · rw [hwaits] at hother
      cases hother
    · obtain ⟨users, hmade⟩ := h.held hm hother
      rw [Locks.update, List.getElem?_modify, hmade]
      by_cases hk : lock = k
      · exact ⟨users + 1, by simp [hk]⟩
      · exact ⟨users, by simp [hk]⟩

/-- A caller from outside is the first user of a new lock. -/
theorem enter_new {identity : Identity} (hnone : locks.table.lookup identity = none)
    (houtside : caller.stage.lock? = none) (hidentity : caller'.identity = identity)
    (hwaits : caller'.stage = .waiting locks.made.length) :
    Guarded ⟨locks.made ++ [⟨1, none⟩], (identity, locks.made.length) :: locks.table⟩
      (callers.set number caller') where
  entered {m k other} hm hother := by
    rcases (getElem?_set_eq_some_iff hn).1 hm with ⟨rfl, rfl⟩ | ⟨-, hm⟩
    · rw [hwaits] at hother
      cases hother
      simp [hidentity]
    · have hlookup := h.entered hm hother
      have hne : other.identity ≠ identity := by
        rintro rfl
        rw [hnone] at hlookup
        cases hlookup
      rwa [List.lookup_cons, beq_false_of_ne hne]
  counted {j k} hlookup := by
    have hcount := users_set hn caller' k
    rw [houtside, hwaits, if_neg nofun, Nat.add_zero] at hcount
    by_cases hj : j = identity
    · have hk : k = locks.made.length := by simpa [hj, eq_comm] using hlookup
      subst hk
      exact ⟨none, by simp [hcount, h.users_eq_zero, Stage.lock?]⟩
    · rw [List.lookup_cons, beq_false_of_ne hj] at hlookup
      have hlt := h.lt_of_lookup hlookup
      obtain ⟨holder, hmade⟩ := h.counted hlookup
      refine ⟨holder, ?_⟩
      rw [List.getElem?_append_left hlt, hmade, hcount]
      simp [Stage.lock?, Nat.ne_of_gt hlt]
  held {m k other} hm hother := by
    rcases (getElem?_set_eq_some_iff hn).1 hm with ⟨rfl, rfl⟩ | ⟨-, hm⟩
    · rw [hwaits] at hother
      cases hother
    · obtain ⟨users, hmade⟩ := h.held hm hother
      exact ⟨users, by rwa [List.getElem?_append_left (List.getElem?_eq_some_iff.1 hmade).1]⟩

end Enter

section Leave

variable (h : Guarded locks callers) (hn : callers[number]? = some caller) (hleaves : caller.stage = .leaving lock)
  (hthrough : caller'.stage = .through)
include h hn hleaves hthrough

/-- A caller is counted out. The table may lose identities that nobody with a lock has any more. -/
theorem count_out (table : List (Identity × Nat))
    (hsub : ∀ identity k, table.lookup identity = some k → locks.table.lookup identity = some k)
    (hkeep : ∀ (m : Nat) (other : Caller α) (k : Nat), (callers.set number caller')[m]? = some other →
      other.stage.lock? = some k → table.lookup other.identity = locks.table.lookup other.identity) :
    Guarded { locks.update lock fun l => { l with users := l.users - 1 } with table } (callers.set number caller') where
  entered {m k other} hm hother := by
    refine (hkeep m other k hm hother).trans ?_
    rcases (getElem?_set_eq_some_iff hn).1 hm with ⟨rfl, rfl⟩ | ⟨-, hm⟩
    · rw [hthrough] at hother
      cases hother
    · exact h.entered hm hother
  counted {j k} hlookup := by
    obtain ⟨holder, hmade⟩ := h.counted (hsub j k hlookup)
    have hcount := users_set hn caller' k
    rw [hleaves, hthrough] at hcount
    simp only [Stage.lock?, Option.some.injEq, reduceCtorEq, if_false, Nat.add_zero] at hcount
    refine ⟨holder, ?_⟩
    simp only [Locks.update, List.getElem?_modify, hmade]
    by_cases hk : lock = k
    · rw [if_pos hk] at hcount
      simp [hk, ← hcount]
    · rw [if_neg hk, Nat.add_zero] at hcount
      simp [hk, hcount]
  held {m k other} hm hother := by
    rcases (getElem?_set_eq_some_iff hn).1 hm with ⟨rfl, rfl⟩ | ⟨-, hm⟩
    · rw [hthrough] at hother
      cases hother
    · obtain ⟨users, hmade⟩ := h.held hm hother
      simp only [Locks.update, List.getElem?_modify, hmade]
      by_cases hk : lock = k
      · exact ⟨users - 1, by simp [hk]⟩
      · exact ⟨users, by simp [hk]⟩

theorem leave : Guarded (locks.leave lock caller.identity) (callers.set number caller') := by
  have hlookup : locks.table.lookup caller.identity = some lock := h.entered hn (by rw [hleaves]; rfl)
  have hout := h.count_out hn hleaves hthrough locks.table (fun _ _ h => h) fun _ _ _ _ _ => rfl
  unfold Locks.leave
  dsimp only
  split
  · rename_i holder hmade
    -- Nobody is counted any more, so nobody with this identity uses a lock.
    have hzero : users (callers.set number caller') lock = 0 := by
      obtain ⟨_, hmade'⟩ := hout.counted hlookup
      exact congrArg Lock.users (Option.some.inj (hmade'.symm.trans hmade))
    refine h.count_out hn hleaves hthrough _ (fun j k hj => ?_) fun m other k hm hother => ?_
    · simp only [Locks.update, Table.lookup_filter_ne] at hj
      split at hj
      · cases hj
      · exact hj
    · have hne : other.identity ≠ caller.identity := by
        intro heq
        have hk := hout.entered hm hother
        rw [heq, hlookup] at hk
        cases hk
        exact absurd (users_pos hm hother) (by omega)
      simp only [Locks.update, Table.lookup_filter_ne, if_neg hne]
  · exact hout

end Leave

/-- **Every move keeps the locks guarded.** -/
theorem moves {backend : Backend σ} {system : Callers σ α} {state : σ} (h : Guarded system.locks system.callers)
    (hn : system.callers[number]? = some caller) (hmoves : system.Moves backend number caller caller' state locks) :
    Guarded locks (system.callers.set number caller') := by
  cases hmoves with
  | enters =>
    rename_i identity program script
    unfold Locks.enter
    split
    · rename_i lock hfound
      exact h.enter_found hn hfound rfl rfl rfl
    · rename_i hnone
      exact h.enter_new hn hnone rfl rfl rfl
  | @acquires identity lock program script _ hacquire =>
    unfold Locks.acquire at hacquire
    split at hacquire
    · rename_i users hmade
      cases hacquire
      refine h.rehold hn rfl rfl rfl (fun _ _ => rfl) fun m other _ hm hinside => ?_
      obtain ⟨_, hmade'⟩ := h.held hm hinside
      rw [hmade] at hmade'
      cases hmade'
    · cases hacquire
  | asks hruns => exact h.keep hn rfl rfl fun _ hl => hl
  | notes hruns => exact h.keep hn rfl rfl fun _ hl => hl
  | @releases identity lock value script =>
    refine h.rehold hn rfl rfl rfl (fun l hl => by cases hl) fun m other hne hm hinside => ?_
    obtain ⟨_, hmade⟩ := h.held hn rfl
    obtain ⟨_, hmade'⟩ := h.held hm hinside
    rw [hmade] at hmade'
    cases hmade'
    exact hne rfl
  | leaves => exact h.leave hn rfl rfl
  | ends => exact h.keep hn rfl rfl fun l hl => by cases hl

/-- **Every run keeps the locks guarded.** -/
theorem run {backend : Backend σ} {system : Callers σ α} (h : Guarded system.locks system.callers)
    (schedule : List Nat) :
    Guarded (system.run backend schedule).locks (system.run backend schedule).callers := by
  induction schedule generalizing system with
  | nil => exact h
  | cons number rest ih =>
    rw [Callers.run, List.foldl_cons]
    apply ih
    cases hstep : system.step backend number with
    | none => exact h
    | some system' =>
      obtain ⟨caller, caller', state, locks, hn, hmoves, rfl⟩ := exists_moves hstep
      exact h.moves hn hmoves

end Guarded

end Schemata.Catalog

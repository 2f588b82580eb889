import Schemata.Proofs.Table.Holding

/-!
# Programs that keep to some keys

- A program is confined to some keys when it asks for no others, whatever it is answered (`Program.Confined`).
- Backends that answer such programs alike from related states make the same run of them (`Program.Confined.run_alike`).
  So a run on a table that holds contents is the run on these (`Program.run_represents`), and contents that agree on the
  keys of a program show it no difference (`Program.Confined.run_agree`).
- A program changes none of the keys that it is not confined to (`Program.Confined.get?_run`).
- A command changes only the rows that it writes (`Store.Holds.row?_answer`), and a read of some keys is answered alike
  by tables that agree on them (`Store.Holds.answer_eq`).
-/

namespace Schemata.Table

/-- A command is about some keys only; a scan is about all keys with its start. -/
def Command.Confined (own : Bytes → Prop) : Command → Prop
  | .get key | .put key _ | .delete key => own key
  | .scan start => ∀ key, start <+: key → own key

/-- Whatever it is answered, a program only asks commands about some keys. -/
def Program.Confined {α : Type} (own : Bytes → Prop) : Program α → Prop
  | .done _ => True
  | .ask command next => command.Confined own ∧ ∀ answer, (next answer).Confined own
  | .note _ next => next.Confined own

/-- What is confined to some keys is confined to more. -/
theorem Program.Confined.mono {α : Type} {own own' : Bytes → Prop} {p : Program α} (hp : p.Confined own)
    (h : ∀ key, own key → own' key) : p.Confined own' := by
  induction p with
  | done a => trivial
  | ask c next ih =>
    refine ⟨?_, fun answer => ih answer (hp.2 answer)⟩
    cases c with
    | scan start => exact fun key hstart => h key (hp.1 key hstart)
    | _ => exact h _ hp.1
  | note r next ih => exact ih hp

/-! ## Runs on related states -/

/-- Ends with the same value and the same records in related states. -/
structure Outcome.Alike {σ τ α : Type} (related : σ → τ → Prop) (o : Outcome σ α) (o' : Outcome τ α) : Prop where
  value : o.value = o'.value
  log : o.log = o'.log
  state : related o.state o'.state

/-- From related states, commands about some keys are answered alike and leave related states. -/
def Backend.Matches {σ τ : Type} (own : Bytes → Prop) (related : σ → τ → Prop) (backend : Backend σ)
    (backend' : Backend τ) : Prop :=
  ∀ command state state', command.Confined own → related state state' →
    (backend.answer command state).1 = (backend'.answer command state').1 ∧
      related (backend.answer command state).2 (backend'.answer command state').2

section Run

variable {σ τ ρ α β : Type} {own : Bytes → Prop} {related : σ → τ → Prop} {backend : Backend σ} {backend' : Backend τ}
  {p : Program α}

theorem Program.confined_bind {f : α → Program β} (hp : p.Confined own) (hf : ∀ a, (f a).Confined own) :
    (p >>= f).Confined own := by
  induction p with
  | done a => exact hf a
  | ask c next ih => exact ⟨hp.1, fun answer => ih answer (hp.2 answer)⟩
  | note r next ih => exact ih hp

/-- **A program cannot tell related states apart.** -/
theorem Program.Confined.run_alike (hp : p.Confined own) (hb : backend.Matches own related backend') {state : σ}
    {state' : τ} (h : related state state') : (p.run backend state).Alike related (p.run backend' state') := by
  induction p generalizing state state' with
  | done a => exact ⟨rfl, rfl, h⟩
  | ask c next ih =>
    obtain ⟨hanswer, hafter⟩ := hb c state state' hp.1 h
    rw [run_ask, run_ask, ← hanswer]
    exact ih _ (hp.2 _) hafter
  | note r next ih =>
    have hnext := ih hp h
    exact ⟨hnext.value, congrArg (r :: ·) hnext.log, hnext.state⟩

section Guarded

variable {judge : Command → ρ → Option Trouble × ρ} {command : Command} {state : σ} {r r' : ρ}

/-- A command that the judge lets pass reaches the backend. -/
theorem Backend.guarded_answer_pass (h : judge command r = (none, r')) :
    (backend.guarded judge).answer command (r, state) =
      ((backend.answer command state).1, r', (backend.answer command state).2) := by
  simp only [guarded, h]

/-- A command that the judge fails has no effect. -/
theorem Backend.guarded_answer_fail {trouble : Trouble} (h : judge command r = (some trouble, r')) :
    (backend.guarded judge).answer command (r, state) = (.error trouble, r', state) := by
  simp only [guarded, h]

end Guarded

/-- A judge looks at commands and not at the states behind it. -/
theorem Backend.Matches.guarded (hb : backend.Matches own related backend')
    (judge : Command → ρ → Option Trouble × ρ) :
    (backend.guarded judge).Matches own (fun s t => s.1 = t.1 ∧ related s.2 t.2) (backend'.guarded judge) := by
  rintro command ⟨r, state⟩ ⟨_, state'⟩ hc ⟨rfl, h⟩
  obtain ⟨hanswer, hafter⟩ := hb command state state' hc h
  rcases hj : judge command r with ⟨_ | trouble, r'⟩
  · rw [guarded_answer_pass hj, guarded_answer_pass hj]
    exact ⟨hanswer, rfl, hafter⟩
  · rw [guarded_answer_fail hj, guarded_answer_fail hj]
    exact ⟨rfl, rfl, h⟩

end Run

/-! ## Contents as tables -/

namespace Contents

/-- Contents answer commands themselves. -/
def backend : Backend Contents where
  answer command s := (.ok (s.answer command).1, (s.answer command).2)

/-- The values of some keys are the same. -/
def AgreeOn (own : Bytes → Prop) (s t : Contents) : Prop := ∀ key, own key → s.get? key = t.get? key

variable {own : Bytes → Prop} {s t u : Contents} {command : Command} {key start : Bytes}

theorem AgreeOn.symm (h : AgreeOn own s t) : AgreeOn own t s := fun key hkey => (h key hkey).symm

theorem AgreeOn.trans (h : AgreeOn own s t) (h' : AgreeOn own t u) : AgreeOn own s u := fun key hkey =>
  (h key hkey).trans (h' key hkey)

/-- A scan shows the values of the keys with its start. -/
theorem scan_congr (h : ∀ key, start <+: key → s.get? key = t.get? key) : s.scan start = t.scan start := by
  apply eq_of_ascending_of_mem_iff (s.ascending_scan start) (t.ascending_scan start)
  intro row
  rw [mem_scan, mem_scan]
  exact and_congr_right fun hstart => by rw [h _ hstart]

/-- Contents that agree on the keys of a command answer it alike and agree afterwards. -/
theorem AgreeOn.answer (h : AgreeOn own s t) (hc : command.Confined own) :
    (s.answer command).1 = (t.answer command).1 ∧ AgreeOn own (s.answer command).2 (t.answer command).2 := by
  cases command with
  | get key => exact ⟨h key hc, h⟩
  | put key value => exact ⟨rfl, fun k hk => by simp only [Contents.answer, get?_put, h k hk]⟩
  | delete key => exact ⟨rfl, fun k hk => by simp only [Contents.answer, get?_delete, h k hk]⟩
  | scan start => exact ⟨scan_congr fun key hstart => h key (hc key hstart), h⟩

/-- A command changes no key that it is not about. -/
theorem get?_answer (hc : command.Confined own) (hkey : ¬own key) : (s.answer command).2.get? key = s.get? key := by
  cases command with
  | get k => rfl
  | put k value => exact get?_put.trans (if_neg fun (h : key = k) => hkey (h ▸ hc))
  | delete k => exact get?_delete.trans (if_neg fun (h : key = k) => hkey (h ▸ hc))
  | scan start => rfl

/-- The same behind a judge. -/
theorem get?_guarded_answer {ρ : Type} (judge : Command → ρ → Option Trouble × ρ) (r : ρ)
    (hc : command.Confined own) (hkey : ¬own key) :
    ((backend.guarded judge).answer command (r, s)).2.2.get? key = s.get? key := by
  rcases hj : judge command r with ⟨_ | trouble, r'⟩
  · rw [Backend.guarded_answer_pass hj]
    exact get?_answer hc hkey
  · rw [Backend.guarded_answer_fail hj]

theorem matches_agreeOn : backend.Matches own (AgreeOn own) backend := fun _ _ _ hc h =>
  ⟨congrArg Except.ok (h.answer hc).1, (h.answer hc).2⟩

end Contents

theorem Backend.Represents.matches {σ : Type} {backend : Backend σ} {holds : σ → Contents → Prop}
    (hb : backend.Represents holds) : backend.Matches (fun _ => True) holds Contents.backend :=
  fun command state s _ h => hb command state s h

theorem Command.confined_true (command : Command) : command.Confined fun _ => True := by
  cases command with
  | scan start => exact fun _ _ => trivial
  | _ => trivial

namespace Program

variable {σ ρ α : Type} {own : Bytes → Prop} {p : Program α} {s t : Contents}

theorem confined_true (p : Program α) : p.Confined fun _ => True := by
  induction p with
  | done a => trivial
  | ask c next ih => exact ⟨c.confined_true, ih⟩
  | note r next ih => exact ih

/-- **A run on a table that holds contents is the run on the contents.** -/
theorem run_represents {backend : Backend σ} {holds : σ → Contents → Prop} (hb : backend.Represents holds)
    (judge : Command → ρ → Option Trouble × ρ) (p : Program α) (r : ρ) {state : σ} (h : holds state s) :
    (p.run (backend.guarded judge) (r, state)).Alike (fun x y => x.1 = y.1 ∧ holds x.2 y.2)
      (p.run (Contents.backend.guarded judge) (r, s)) :=
  p.confined_true.run_alike (hb.matches.guarded judge) ⟨rfl, h⟩

/-- **Contents that agree on the keys of a program show it no difference.** -/
theorem Confined.run_agree (hp : p.Confined own) (judge : Command → ρ → Option Trouble × ρ) (r : ρ)
    (h : Contents.AgreeOn own s t) :
    (p.run (Contents.backend.guarded judge) (r, s)).Alike (fun x y => x.1 = y.1 ∧ Contents.AgreeOn own x.2 y.2)
      (p.run (Contents.backend.guarded judge) (r, t)) :=
  hp.run_alike (Contents.matches_agreeOn.guarded judge) ⟨rfl, h⟩

/-- **A program leaves the keys of others alone.** -/
theorem Confined.get?_run (hp : p.Confined own) (judge : Command → ρ → Option Trouble × ρ) (r : ρ) {key : Bytes}
    (hkey : ¬own key) : (p.run (Contents.backend.guarded judge) (r, s)).state.2.get? key = s.get? key := by
  induction p generalizing r s with
  | done a => rfl
  | ask c next ih =>
    rw [run_ask]
    exact (ih _ (hp.2 _) _).trans (Contents.get?_guarded_answer judge r hp.1 hkey)
  | note record next ih => exact ih hp r

section Represents

variable {backend : Backend σ} {holds : σ → Contents → Prop} (hb : backend.Represents holds)
  (judge : Command → ρ → Option Trouble × ρ) (r : ρ) {state state' : σ}
include hb

/-- A run leaves the keys of others alone in the contents that a table holds. -/
theorem Confined.exists_holds_run (hp : p.Confined own) (h : holds state s) :
    ∃ t, holds (p.run (backend.guarded judge) (r, state)).state.2 t ∧ Contents.AgreeOn (fun key => ¬own key) s t :=
  ⟨_, (run_represents hb judge p r h).state.2, fun _ hkey => (hp.get?_run judge r hkey).symm⟩

/-- Tables whose contents agree on the keys of a program make runs with the same value, and agree afterwards. -/
theorem Confined.run_eq (hp : p.Confined own) (h : holds state s) (h' : holds state' t)
    (hagree : Contents.AgreeOn own s t) :
    (p.run (backend.guarded judge) (r, state)).value = (p.run (backend.guarded judge) (r, state')).value ∧
      ∃ u v, holds (p.run (backend.guarded judge) (r, state)).state.2 u ∧
        holds (p.run (backend.guarded judge) (r, state')).state.2 v ∧ Contents.AgreeOn own u v := by
  have hrun := run_represents hb judge p r h
  have hrun' := run_represents hb judge p r h'
  have halike := hp.run_agree judge r hagree
  exact ⟨hrun.value.trans (halike.value.trans hrun'.value.symm), _, _, hrun.state.2, hrun'.state.2, halike.state.2⟩

end Represents

end Program

/-! ## Commands to a table -/

/-- A command changes one of some keys. -/
def Command.Writes (own : Bytes → Prop) : Command → Prop
  | .put key _ | .delete key => own key
  | .get _ | .scan _ => False

instance (own : Bytes → Prop) [DecidablePred own] (command : Command) : Decidable (command.Writes own) :=
  match command with
  | .put key _ | .delete key => inferInstanceAs (Decidable (own key))
  | .get _ | .scan _ => .isFalse id

namespace Store

variable {own : Bytes → Prop} {command : Command} {store store' : Store} {s s' : Contents}

/-- Keys that a command does not change keep their rows. -/
theorem Holds.row?_answer (h : store.Holds s) (hwrites : ¬command.Writes own) {key : Bytes} (hkey : own key) :
    (backend.answer command store).2.row? key = store.row? key := by
  rw [(represents command store s h).2.row?_eq, h.row?_eq]
  cases command with
  | get k => rfl
  | put k value => exact Contents.get?_put.trans (if_neg fun he : key = k => hwrites (he ▸ hkey))
  | delete k => exact Contents.get?_delete.trans (if_neg fun he : key = k => hwrites (he ▸ hkey))
  | scan start => rfl

/-- A read is answered alike by tables that agree on its keys, and changes nothing. -/
theorem Holds.answer_eq (h : store.Holds s) (h' : store'.Holds s') (hconfined : command.Confined own)
    (hread : command.isWrite = false) (hrows : ∀ key, own key → store.row? key = store'.row? key) :
    backend.answer command store = ((backend.answer command store').1, store) := by
  have hagree : Contents.AgreeOn own s s' := fun key hkey => by rw [← h.row?_eq, ← h'.row?_eq, hrows key hkey]
  refine Prod.ext ?_ ?_
  · rw [(represents command store s h).1, (represents command store' s' h').1]
    exact congrArg Except.ok (hagree.answer hconfined).1
  · cases command with
    | put key value => cases hread
    | delete key => cases hread
    | _ =>
      cases store with
      | memory table => rfl
      | file table => simp [backend, Relation.backend, (show table.damaged = false from h.sound)]
      | unkept => cases h

end Store

end Schemata.Table

import Schemata.Catalog.Callers
import Schemata.Proofs.Catalog.Run
import Schemata.Proofs.Table.Footprint

/-!
# Calls on contents

- `x.on script s` is how the work `x` ends on the contents `s` behind a script of failures: its result, what is left of
  the script, and the contents after it. Sequences and activities have one equation each (`on_bind_ok`, `on_bind_error`,
  `on_within`).
- A call on a table that holds contents does to it what it does to the contents (`Call.event_eq`). So tables that hold
  the same contents have the same histories (`history_congr`).
-/

namespace Schemata.Catalog

open Table (Command Contents Script Store Trouble)

/-! ## Works on contents -/

namespace Work

variable {α β : Type} {x : Work α} {f : α → Work β} {script rest : Script} {s u : Contents} {a : α}
  {failure : Failure} {trouble : Trouble} {command : Command}

/-- The end of a work on contents behind a script. -/
def on (x : Work α) (script : Script) (s : Contents) : Except Failure α × Script × Contents :=
  ((x.run.run (Contents.backend.guarded Script.judge) (script, s)).value,
    (x.run.run (Contents.backend.guarded Script.judge) (script, s)).state)

theorem on_pure : (pure a : Work α).on script s = (.ok a, script, s) := rfl

theorem on_throw : (throw failure : Work α).on script s = (.error failure, script, s) := rfl

theorem on_ask_pass :
    (ask command).on (none :: rest) s = (.ok (s.answer command).1, rest, (s.answer command).2) := rfl

theorem on_ask_fail : (ask command).on (some trouble :: rest) s = (.error (.table trouble), rest, s) := rfl

theorem on_bind : (x >>= f).on script s =
    match x.on script s with
    | (.ok a, rest, u) => (f a).on rest u
    | (.error failure, rest, u) => (.error failure, rest, u) := by
  rw [on, show (x >>= f).run = x.run >>= ExceptT.bindCont f from rfl, Table.Program.run_bind]
  simp only [on]
  generalize x.run.run (Contents.backend.guarded Script.judge) (script, s) = o
  obtain ⟨_ | a, state, log⟩ := o
  · rfl
  · rfl

theorem on_bind_ok (h : x.on script s = (.ok a, rest, u)) : (x >>= f).on script s = (f a).on rest u := by
  rw [on_bind, h]

theorem on_bind_error (h : x.on script s = (.error failure, rest, u)) :
    (x >>= f).on script s = (.error failure, rest, u) := by
  rw [on_bind, h]

theorem on_within {activity : Activity} {identity : Identity} : (within activity identity x).on script s =
    ((x.on script s).1.mapError (·.during activity identity), (x.on script s).2) := by
  have hrun : (within activity identity x).run = x.run >>= _ := rfl
  rw [on, hrun, Table.Program.run_bind]
  simp only [on]
  generalize x.run.run (Contents.backend.guarded Script.judge) (script, s) = o
  obtain ⟨failure | a, state, log⟩ := o
  · cases failure <;> rfl
  · rfl

/-- What follows an activity and hands its value on. -/
theorem on_within_bind {activity : Activity} {identity : Identity} {g : α → Work α}
    (hg : ∀ a script s, (g a).on script s = (.ok a, script, s)) {r : Except Failure α} :
    (within activity identity x >>= g).on script s = (r, rest, u) ↔
      ∃ r', x.on script s = (r', rest, u) ∧ r'.mapError (·.during activity identity) = r := by
  rw [on_bind, on_within]
  obtain ⟨failure | a, rest', u'⟩ := x.on script s
  · simp [Except.mapError, and_comm, and_assoc, eq_comm]
  · simp [Except.mapError, hg, and_comm, and_assoc, eq_comm]

end Work

/-! ## Calls on contents -/

/-- The result of a call on contents, and the contents after it. -/
def Call.on (call : Call) (s : Contents) : Except Failure Reply × Contents :=
  ((call.request.work.on call.script s).1, (call.request.work.on call.script s).2.2)

/-- A call does to a table what it does to the contents that the table holds. -/
theorem Call.event_eq (call : Call) {store : Store} {s : Contents} (h : store.Holds s) :
    (call.event store).result = (call.on s).1 ∧ (call.event store).after.Holds (call.on s).2 := by
  have hrun := Table.Program.run_represents Store.represents Script.judge call.request.work.run call.script h
  exact ⟨hrun.value, hrun.state.2⟩

/-- **Tables that hold the same contents have the same histories.** -/
theorem history_congr (calls : List Call) {store store' : Store} {s : Contents} (h : store.Holds s)
    (h' : store'.Holds s) : (history calls store).map (·.result) = (history calls store').map (·.result) := by
  induction calls generalizing store store' s with
  | nil => rfl
  | cons call rest ih =>
    obtain ⟨hresult, hafter⟩ := call.event_eq h
    obtain ⟨hresult', hafter'⟩ := call.event_eq h'
    simp only [history, List.map_cons]
    rw [hresult, hresult', ih hafter hafter']

/-! ## Callers that make calls -/

/-- A caller that makes a call, with the lock of its identity. -/
def Call.locked (call : Call) : Caller (Except Failure Reply) :=
  .locking call.request.identity call.request.work.run call.script

/-- A caller that makes a call without a lock. -/
def Call.unlocked (call : Call) : Caller (Except Failure Reply) :=
  .reading call.request.identity call.request.work.run call.script

end Schemata.Catalog

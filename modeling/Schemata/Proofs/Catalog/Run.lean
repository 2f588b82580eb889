import Schemata.Proofs.Catalog.Kept

/-!
# Runs of the registry

- A `Call` is a request with the failures laid down for its commands, an `Event` what a call did to a table, and the
  `history` of calls their events one after the other.
- A `Trail` follows a history on the contents that the table holds: each of its events is a step between orderly
  contents. Every history of a table that holds orderly contents is a trail (`exists_trail`), and a part of a history is
  the trail of a part (`Trail.append_iff`).
-/

namespace Schemata.Catalog

open Table (Contents Script Store Trouble)

/-! ## What a table tells of an identity -/

namespace Identity

/-- The value that a table has for a row. -/
def rowOf (i : Identity) (store : Store) (row : RowName) : Option Bytes :=
  match i.key row with
  | .ok key => store.row? key
  | .error _ => none

/-- The identity has a descriptor in a table. -/
def IsDescribed (i : Identity) (store : Store) : Prop := i.rowOf store .descriptor ≠ none

instance (i : Identity) (store : Store) : Decidable (i.IsDescribed store) := inferInstanceAs (Decidable (_ ≠ _))

/-- The counter, as the registry reads it from a table. -/
def counterOf (i : Identity) (store : Store) : Nat :=
  ((Rows.counter i).run.run Store.backend store).value.toOption.getD 0

/-- The highest of the counter and the versions, as the registry reads them from a table. -/
def latestOf (i : Identity) (store : Store) : Nat :=
  (((Rows.versions i).run.run Store.backend store).value.toOption.getD []).foldl
    (fun latest version => max latest version.number) (i.counterOf store)

variable {i : Identity} {store : Store} {s : Contents} {row : RowName}

theorem rowOf_eq (h : store.Holds s) : i.rowOf store row = i.row? s row := by
  unfold rowOf row?
  cases i.key row with
  | ok key => exact h.row?_eq key
  | error reason => rfl

theorem isDescribed_iff (h : store.Holds s) : i.IsDescribed store ↔ i.DescribedIn s := by
  rw [IsDescribed, rowOf_eq h, DescribedIn]

theorem counterOf_eq (hs : Orderly s) (hi : i.Fits) (h : store.Holds s) : i.counterOf store = i.counterIn s := by
  rw [counterOf, (Rows.tries_counter hs hi).run Store.represents h]
  rfl

theorem latestOf_eq (hs : Orderly s) (hi : i.Fits) (h : store.Holds s) : i.latestOf store = i.latestIn s := by
  rw [latestOf, (Rows.tries_versions hs hi).run Store.represents h, counterOf_eq hs hi h]
  rfl

end Identity

/-! ## Calls and events -/

/-- A request and which of its commands will fail. -/
structure Call where
  request : Request
  script : Script

/-- A call with nothing to fail. -/
def Request.calm (request : Request) : Call := ⟨request, []⟩

/-- A trouble is laid down for one of the commands. -/
def Call.Suffers (call : Call) (trouble : Trouble) : Prop := some trouble ∈ call.script

/-- No command of the call will fail. -/
def Call.Calm (call : Call) : Prop := ∀ trouble, ¬call.Suffers trouble

theorem Request.calm_calm (request : Request) : request.calm.Calm := fun _ => List.not_mem_nil

/-- What a call did to a table. -/
structure Event where
  call : Call
  before : Store
  result : Except Failure Reply
  after : Store

/-- Runs a call on a table. -/
def Call.event (call : Call) (store : Store) : Event :=
  let outcome := call.request.work.run.run (Store.backend.guarded Script.judge) (call.script, store)
  ⟨call, store, outcome.value, outcome.state.2⟩

/-- The events of calls, one after the other. -/
def history : List Call → Store → List Event
  | [], _ => []
  | call :: rest, store => call.event store :: history rest (call.event store).after

/-- The table after calls. -/
def afterCalls : List Call → Store → Store
  | [], store => store
  | call :: rest, store => afterCalls rest (call.event store).after

theorem history_append (calls rest : List Call) (store : Store) :
    history (calls ++ rest) store = history calls store ++ history rest (afterCalls calls store) := by
  induction calls generalizing store with
  | nil => rfl
  | cons call calls ih => rw [List.cons_append, history, ih, history, afterCalls, List.cons_append]

theorem afterCalls_append (calls rest : List Call) (store : Store) :
    afterCalls (calls ++ rest) store = afterCalls rest (afterCalls calls store) := by
  induction calls generalizing store with
  | nil => rfl
  | cons call calls ih => rw [List.cons_append, afterCalls, ih, afterCalls]

theorem call_mem_of_mem_history {calls : List Call} {store : Store} {event : Event} (h : event ∈ history calls store) :
    event.call ∈ calls := by
  induction calls generalizing store with
  | nil => cases h
  | cons call rest ih =>
    rcases List.mem_cons.1 h with rfl | h
    · exact List.mem_cons_self
    · exact List.mem_cons_of_mem _ (ih h)

/-- The identity has a descriptor before and after an event. -/
def Event.Keeps (i : Identity) (event : Event) : Prop := i.IsDescribed event.before ∧ i.IsDescribed event.after

instance (i : Identity) (event : Event) : Decidable (event.Keeps i) := inferInstanceAs (Decidable (_ ∧ _))

/-! ## What events tell -/

namespace Event

variable {i : Identity} {event : Event}

/-- The number that an append to the identity ended with. -/
def acknowledged? (i : Identity) (event : Event) : Option Nat :=
  match event.call.request, event.result with
  | .append j _, .ok (.number n) => if j = i then some n else none
  | _, _ => none

/-- The version that a reader of the identity got, its number and its content. -/
def revealed? (i : Identity) (event : Event) : Option (Int × Bytes) :=
  match event.call.request, event.result with
  | .entry j _, .ok (.entry entry) => if j = i then some (entry.version, entry.content) else none
  | _, _ => none

theorem of_acknowledged? {n : Nat} (h : event.acknowledged? i = some n) :
    ∃ content, event.call.request = .append i content ∧ event.result = .ok (.number n) := by
  unfold acknowledged? at h
  split at h
  · rename_i j content m hrequest hresult
    split at h
    · rename_i hj
      cases hj
      cases h
      exact ⟨content, hrequest, hresult⟩
    · cases h
  · cases h

theorem revealed?_eq_some_iff {n : Int} {content : Bytes} : event.revealed? i = some (n, content) ↔
    ∃ number entry, event.call.request = .entry i number ∧ event.result = .ok (.entry entry) ∧
      entry.version = n ∧ entry.content = content := by
  unfold revealed?
  constructor
  · intro h
    split at h
    · rename_i j number entry hrequest hresult
      split at h
      · rename_i hj
        cases hj
        cases h
        exact ⟨number, entry, hrequest, hresult, rfl, rfl⟩
      · cases h
    · cases h
  · rintro ⟨number, entry, hrequest, hresult, rfl, rfl⟩
    simp [hrequest, hresult]

end Event

/-! ## Trails -/

/-- An event is a step between contents that its tables hold. -/
structure Event.Leads (event : Event) (s t : Contents) : Prop where
  before : event.before.Holds s
  after : event.after.Holds t
  orderly : Orderly s
  step : Step event.call.Suffers s event.call.request event.result t

/-- **A call on a table that holds orderly contents is a step.** -/
theorem Call.exists_leads (call : Call) {store : Store} {s : Contents} (hs : Orderly s) (h : store.Holds s) :
    ∃ t, (call.event store).Leads s t := by
  obtain ⟨t, ht, hends⟩ := Work.ends_run Store.represents call.request.work call.script h
  exact ⟨t, h, ht, hs, Request.step_of_ends hs hends⟩

/-- A reader without failures gets what is stored, and leaves it there. -/
theorem revealed?_of_calm {i : Identity} {store : Store} {s : Contents} {n : Nat} {content : Bytes} (hs : Orderly s)
    (hholds : store.Holds s) (hd : i.DescribedIn s) (hrow : i.row? s (.version n) = some content) :
    ((Request.entry i (some n)).calm.event store).revealed? i = some ((n : Int), content) ∧
      ((Request.entry i (some n)).calm.event store).after.Holds s := by
  obtain ⟨t, hleads⟩ := (Request.entry i (some n)).calm.exists_leads hs hholds
  obtain ⟨entry, hresult, -, hversion, hcontent, ht⟩ :=
    hleads.step.entry_of_calm (Request.calm_calm _) hd hs hrow
  exact ⟨Event.revealed?_eq_some_iff.2 ⟨some n, entry, rfl, hresult, hversion, hcontent⟩, ht ▸ hleads.after⟩

/-- Events that lead from contents to contents. -/
inductive Trail : Contents → List Event → Contents → Prop
  | nil {s} : Trail s [] s
  | cons {s u t event rest} (h : event.Leads s u) (hrest : Trail u rest t) : Trail s (event :: rest) t

/-- **Every history of a table with orderly contents is a trail.** -/
theorem exists_trail (calls : List Call) {store : Store} {s : Contents} (hs : Orderly s) (h : store.Holds s) :
    ∃ t, Trail s (history calls store) t ∧ Orderly t ∧ (afterCalls calls store).Holds t := by
  induction calls generalizing store s with
  | nil => exact ⟨s, .nil, hs, h⟩
  | cons call rest ih =>
    obtain ⟨u, hu⟩ := call.exists_leads hs h
    obtain ⟨t, ht, hot, hafter⟩ := ih (hu.step.orderly hs) hu.after
    exact ⟨t, .cons hu ht, hot, hafter⟩

namespace Trail

variable {s t : Contents} {events earlier later : List Event}

/-- A trail is a trail of its first part and then one of the rest. -/
theorem append_iff : Trail s (earlier ++ later) t ↔ ∃ u, Trail s earlier u ∧ Trail u later t := by
  induction earlier generalizing s with
  | nil =>
    constructor
    · intro h
      exact ⟨s, .nil, h⟩
    · rintro ⟨u, ⟨⟩, h⟩
      exact h
  | cons event rest ih =>
    constructor
    · rintro ⟨⟩
      rename_i u h hrest
      obtain ⟨v, hv, hlater⟩ := ih.1 hrest
      exact ⟨v, .cons h hv, hlater⟩
    · rintro ⟨v, ⟨⟩, hlater⟩
      rename_i u h hrest
      exact .cons h (ih.2 ⟨v, hrest, hlater⟩)

theorem cons_iff {event : Event} : Trail s (event :: later) t ↔ ∃ u, event.Leads s u ∧ Trail u later t := by
  constructor
  · rintro ⟨⟩
    exact ⟨_, ‹_›, ‹_›⟩
  · rintro ⟨u, h, hrest⟩
    exact .cons h hrest

theorem orderly (h : Trail s events t) (hs : Orderly s) : Orderly t := by
  induction h with
  | nil => exact hs
  | cons h hrest ih => exact ih (h.step.orderly hs)

/-- The contents before and after one of the events. -/
theorem leads_of_mem (h : Trail s events t) {event : Event} (hmem : event ∈ events) :
    ∃ u v, event.Leads u v := by
  induction h with
  | nil => cases hmem
  | cons h hrest ih =>
    rcases List.mem_cons.1 hmem with rfl | hmem
    · exact ⟨_, _, h⟩
    · exact ih hmem

end Trail

theorem Event.Keeps.describedIn {i : Identity} {event : Event} {s t : Contents} (h : event.Keeps i)
    (hleads : event.Leads s t) : i.DescribedIn s ∧ i.DescribedIn t :=
  ⟨(Identity.isDescribed_iff hleads.before).1 h.1, (Identity.isDescribed_iff hleads.after).1 h.2⟩

/-- While an identity keeps its descriptor, events only append and erase versions. -/
theorem Event.Leads.change {i : Identity} {event : Event} {s t : Contents} (h : event.Leads s t)
    (hkeeps : event.Keeps i) : Change i s event.call.request event.result t :=
  h.step.change (hkeeps.describedIn h).1 (hkeeps.describedIn h).2

/-- An identity that is not to be erased keeps its descriptor. -/
theorem Trail.keeps {i : Identity} {s t : Contents} {events : List Event} (h : Trail s events t) (hd : i.DescribedIn s)
    (hrequests : ∀ event ∈ events, event.call.request ≠ .erase i) :
    (∀ event ∈ events, event.Keeps i) ∧ i.DescribedIn t := by
  induction h with
  | nil => exact ⟨by simp, hd⟩
  | cons h hrest ih =>
    obtain ⟨hrequest, hrequests⟩ := List.forall_mem_cons.1 hrequests
    have hu := h.step.describedIn hd hrequest
    obtain ⟨hkeeps, ht⟩ := ih hu hrequests
    have hevent : Event.Keeps i _ := ⟨(Identity.isDescribed_iff h.before).2 hd, (Identity.isDescribed_iff h.after).2 hu⟩
    exact ⟨List.forall_mem_cons.2 ⟨hevent, hkeeps⟩, ht⟩

/-! ## Samples -/

namespace Sample

/-- An identity. -/
def orders : Identity := ⟨"", "orders"⟩

/-- Its description. -/
def draft : Draft := ⟨orders, "Orders", "Order events", .known .avro⟩

/-- The least number that is too long to be written. -/
def endless : Int := (10 ^ 4300 : Nat)

theorem not_isWritable_endless : Text.isWritable endless = false := by decide +kernel

/-- The identity is described, and a content is appended whose counting fails: the fifth command of the append. -/
def interrupted : List Call :=
  [(Request.describe draft).calm, ⟨.append orders (some [1]), [none, none, none, none, some ⟨"disk full"⟩]⟩]

end Sample

end Schemata.Catalog

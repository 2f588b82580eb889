import Schemata.Proofs.Catalog.Interrupted
import Schemata.Proofs.Catalog.Outcomes

/-!
# Erasing an identity

An erasure takes out the rows that it knows of: the descriptor, the versions that a scan finds, and the counter. In
orderly contents an identity has no other rows, whatever was interrupted before.

- A call leaves the keys of other identities alone (`Call.row?_of_not_owns`), and an erasure that succeeds leaves no key
  of its own identity (`Event.Leads.row?_of_erased`).
- An erasure succeeds exactly when no failure strikes it, whether there is a descriptor or not; an identity that does
  not fit into keys is refused (`erasure_complete`). So not every identity can be erased (`not_always_erased`).
-/

namespace Schemata.Catalog

open Table (Contents Script Store Trouble)

variable {may : Trouble → Prop} {i : Identity} {s t : Contents} {store : Store} {request : Request}
  {result : Except Failure Reply}

/-! ## The keys of an identity -/

/-- A call leaves the keys of other identities alone. -/
theorem Call.row?_of_not_owns (call : Call) (h : store.Holds s) {key : Bytes}
    (hkey : ¬call.request.identity.Owns key) : (call.event store).after.row? key = store.row? key := by
  rw [(call.event_eq h).2.row?_eq, h.row?_eq]
  exact Table.Program.Confined.get?_run call.request.confined Script.judge call.script hkey

/-- Where an identity has no rows, no key starts with its stem. -/
theorem Orderly.get?_of_owns (hs : Orderly s) (hrows : ∀ row, i.row? s row = none) {key : Bytes} (hkey : i.Owns key) :
    s.get? key = none := by
  rw [Option.eq_none_iff_forall_ne_some]
  intro octets hget
  obtain ⟨row, hrow⟩ := hs.row?_of_owns hkey hget
  rw [← Identity.row?_of_key hrow, hrows] at hget
  cases hget

/-! ## Erasures -/

/-- An erasure that succeeds leaves no row of its identity. -/
theorem Step.row?_of_erased {reply : Reply} {row : RowName} (h : Step may s (.erase i) (.ok reply) t)
    (hs : Orderly s) : i.row? t row = none := by
  cases h with
  | erased => exact hs.row?_erased

/-- Without failures an erasure succeeds, whatever rows there are. -/
theorem Step.erase_of_calm (h : Step may s (.erase i) result t) (hcalm : ∀ trouble, ¬may trouble) (hi : i.Fits) :
    result = .ok .done := by
  cases h with
  | refused hcheck => cases hcheck
  | unfit _ hstem =>
    rw [Request.identity, Identity.stem_of_fits hi] at hstem
    cases hstem
  | failed hm => exact absurd hm (hcalm _)
  | absent _ hneeds => cases hneeds
  | halfErased hm => exact absurd hm (hcalm _)
  | erased => rfl

theorem Event.Leads.row?_of_erased {event : Event} {reply : Reply} {key : Bytes} (h : event.Leads s t)
    (hrequest : event.call.request = .erase i) (hresult : event.result = .ok reply) (hkey : i.Owns key) :
    event.after.row? key = none := by
  have hstep := h.step
  rw [hrequest, hresult] at hstep
  rw [h.after.row?_eq]
  exact (hstep.orderly h.orderly).get?_of_owns (fun row => hstep.row?_of_erased h.orderly) hkey

/-- An erasure succeeds exactly when no failure strikes it. -/
theorem event_erase_of_fits (hs : Orderly s) (hholds : store.Holds s) (hi : i.Fits) (script : Script) :
    (Call.event ⟨.erase i, script⟩ store).result = .ok .done ↔ ¬(Call.mk (.erase i) script).Struck store := by
  constructor
  · intro hdone hstruck
    obtain ⟨failure, herror, -⟩ := Call.error_of_struck hstruck
    rw [hdone] at herror
    cases herror
  · intro hstruck
    rw [(Call.event_of_not_struck hstruck).1]
    obtain ⟨t, h⟩ := (Request.erase i).calm.exists_leads hs hholds
    exact h.step.erase_of_calm (Request.calm_calm _) hi

/-- The erasure of an identity that does not fit into keys is refused before the table is asked. -/
theorem event_erase_of_not_fits (hi : ¬i.Fits) (script : Script) :
    (∃ part size, (Call.event ⟨.erase i, script⟩ store).result = .error (.invalid (.tooLong part size))) ∧
      (Call.event ⟨.erase i, script⟩ store).after = store := by
  obtain ⟨part, size, hstem⟩ := Identity.stem_of_not_fits hi
  obtain ⟨⟨reason, hresult, hreason⟩, hafter⟩ := Call.refused_of_not_fits ⟨.erase i, script⟩ hi store
  refine ⟨⟨part, size, ?_⟩, hafter⟩
  rcases hreason with hcheck | ⟨-, hreason⟩
  · cases hcheck
  · rw [hresult, Except.error.inj (hreason.symm.trans hstem)]

/-- **Erasures are complete.** In a run with any failures, an erasure that succeeds leaves no key that starts with the
stem of its identity, and every other key as it was. An identity that fits into keys is erased, whether it has a
descriptor or not, exactly when no failure strikes the call; one that does not fit has no keys and is refused, and the
table stays as it was. -/
theorem erasure_complete (hnew : store.IsNew) (calls : List Call) (i : Identity) (script : Script) {event : Event}
    (hevent : event = Call.event ⟨.erase i, script⟩ (afterCalls calls store)) :
    (∀ reply, event.result = .ok reply →
      (∀ key, i.Owns key → event.after.row? key = none) ∧
        ∀ key, ¬i.Owns key → event.after.row? key = event.before.row? key) ∧
      (i.Fits → (event.result = .ok .done ↔ ¬event.call.Struck event.before)) ∧
        (¬i.Fits → (∃ part size, event.result = .error (.invalid (.tooLong part size))) ∧
          event.after = event.before) := by
  subst hevent
  obtain ⟨s, -, hs, hholds⟩ := exists_trail calls Orderly.empty hnew.holds
  obtain ⟨t, h⟩ := (Call.mk (.erase i) script).exists_leads hs hholds
  refine ⟨fun reply hreply => ⟨fun key hkey => ?_, fun key hkey => ?_⟩, fun hi => ?_, fun hi => ?_⟩
  · exact h.row?_of_erased rfl hreply hkey
  · exact Call.row?_of_not_owns _ hholds hkey
  · exact event_erase_of_fits hs hholds hi script
  · exact event_erase_of_not_fits hi script

namespace Sample

/-- The second version is stored and not counted, and the erasure is cut off behind the descriptor. -/
def orphaned : List Call := uploaded ++ [uncounted, ⟨.erase orders, .strike 1 ⟨"disk full"⟩ []⟩]

/-- A name of more octets than a key can hold. -/
def wordy : Identity := ⟨"default", String.ofList (List.replicate 65536 'a')⟩

end Sample

/-- An erasure of the rows that an interrupted one left, with a failure laid down for a command that never comes. -/
theorem erasure_complete_orphans :
    (¬Sample.orders.IsDescribed (afterCalls Sample.orphaned (.memory .empty)) ∧
      Sample.orders.rowOf (afterCalls Sample.orphaned (.memory .empty)) (.version 2) = some [2]) ∧
    ∀ event, event = Call.event ⟨.erase Sample.orders, .strike 5 ⟨"disk full"⟩ []⟩
        (afterCalls Sample.orphaned (.memory .empty)) →
      event.result = .ok .done ∧ ∀ key, Sample.orders.Owns key → event.after.row? key = none := by
  refine ⟨by decide +kernel, ?_⟩
  rintro event rfl
  obtain ⟨herased, hfits, -⟩ := erasure_complete .memory Sample.orphaned Sample.orders (.strike 5 ⟨"disk full"⟩ []) rfl
  have hdone := (hfits (by decide)).2 (by decide +kernel)
  exact ⟨hdone, (herased _ hdone).1⟩

theorem Sample.not_fits_wordy : ¬Sample.wordy.Fits := by
  have hsize : ∀ n, (String.ofList (List.replicate n 'a')).utf8ByteSize = n := by
    intro n
    induction n with
    | zero => rfl
    | succ n ih =>
      rw [List.replicate_succ', String.ofList_append, String.utf8ByteSize_append, ih]
      rfl
  rintro ⟨-, hlabel⟩
  rw [Sample.wordy, Bytes.length_ofText, hsize, maxPartSize] at hlabel
  omega

/-- **Not every identity can be erased**, though no failure strikes: one that does not fit into keys cannot. -/
theorem not_always_erased : ¬∀ (calls : List Call) (i : Identity) (script : Script),
    ¬(Call.mk (.erase i) script).Struck (afterCalls calls (.memory .empty)) →
      (Call.event ⟨.erase i, script⟩ (afterCalls calls (.memory .empty))).result = .ok .done := by
  intro h
  obtain ⟨part, size, herror⟩ : ∃ part size,
      (Call.event ⟨.erase Sample.wordy, []⟩ (afterCalls [] (.memory .empty))).result =
        .error (.invalid (.tooLong part size)) := (event_erase_of_not_fits Sample.not_fits_wordy []).1
  have hdone := h [] Sample.wordy [] ((Request.erase Sample.wordy).not_struck_calm _)
  rw [herror] at hdone
  cases hdone

end Schemata.Catalog

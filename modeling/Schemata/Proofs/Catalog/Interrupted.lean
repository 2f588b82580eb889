import Schemata.Proofs.Catalog.FailedAppend
import Schemata.Proofs.Catalog.Lookups
import Schemata.Proofs.Catalog.Numbering

/-!
# Interrupted requests

A description, the erasure of a version and the erasure of an identity may be cut off by a failure at any of their
commands, again and again, and leave rows behind.

- The result of a call depends on the rows of its identity only (`Call.result_eq_of_rows`), and what a read tells of an
  identity without a descriptor does not depend on these either (`Step.unseen`). So reads tell the same of an identity
  whose rows are the same, or which has no descriptor before and after (`readsAlike`).
- A descriptor comes with a description that succeeds and with nothing else (`Step.describes`), and takes the place of
  all rows that were left (`Step.fresh`).
- So an interruption changes nothing that reads tell, or makes the identity that was to be erased absent; and an
  identity that is described again after an interruption starts over (`interrupted_harmless`).
-/

namespace Schemata.Catalog

open Table (Contents Script Store Trouble)

variable {may : Trouble → Prop} {i : Identity} {s t : Contents} {store store' : Store} {request : Request}
  {result : Except Failure Reply}

/-! ## What reads tell -/

/-- What a read tells of an identity that is not there. -/
def Request.unseen : Request → Except Failure Reply
  | .contains _ => .ok (.answer false)
  | request => .error (.missing (.schema request.identity))

namespace Identity

/-- Without failures, every read of the identity ends alike on two tables. -/
def ReadsAlike (i : Identity) (store store' : Store) : Prop :=
  ∀ request : Request, request.reads → request.identity = i →
    (request.calm.event store).result = (request.calm.event store').result

/-- Without failures, every read tells that the identity is not there. -/
def IsUnseen (i : Identity) (store : Store) : Prop :=
  ∀ request : Request, request.reads → request.identity = i → (request.calm.event store).result = request.unseen

/-- Without failures, every read tells that the identity is there and has no versions. -/
structure IsFresh (i : Identity) (store : Store) : Prop where
  contains : ((Request.contains i).calm.event store).result = .ok (.answer true)
  numbers : ((Request.numbers i).calm.event store).result = .ok (.numbers [])
  current : ((Request.entry i none).calm.event store).result = .error (.missing (.versions i))
  entry : ∀ n, ((Request.entry i (some n)).calm.event store).result = .error (Failure.missing (.version i n)).worded

end Identity

/-- A key that an identity owns is the key of one of its rows. -/
theorem Orderly.row?_of_owns (hs : Orderly s) {key octets : Bytes} (hkey : i.Owns key)
    (hget : s.get? key = some octets) : ∃ row, i.key row = .ok key := by
  obtain ⟨j, row, hj, -⟩ := hs key octets hget
  obtain rfl := hkey.unique (Identity.owns_key hj)
  exact ⟨row, hj⟩

/-- Contents with the same rows of an identity agree on the keys that it owns. -/
theorem Orderly.agreeOn_owns (hs : Orderly s) (ht : Orderly t) (hrows : ∀ row, i.row? s row = i.row? t row) :
    s.AgreeOn i.Owns t := by
  intro key hkey
  by_cases hrow : ∃ row, i.key row = .ok key
  · obtain ⟨row, hrow⟩ := hrow
    rw [← Identity.row?_of_key hrow, hrows, Identity.row?_of_key hrow]
  · have hnone : ∀ {u : Contents}, Orderly u → u.get? key = none := fun hu =>
      Option.eq_none_iff_forall_ne_some.2 fun octets hget => hrow (hu.row?_of_owns hkey hget)
    rw [hnone hs, hnone ht]

/-- **The result of a call depends on the rows of its identity only.** -/
theorem Call.result_eq_of_rows (call : Call) (hs : Orderly s) (ht : Orderly t) (h : store.Holds s)
    (h' : store'.Holds t) (hrows : ∀ row, call.request.identity.row? s row = call.request.identity.row? t row) :
    (call.event store).result = (call.event store').result := by
  rw [(call.event_eq h).1, (call.event_eq h').1]
  exact (Table.Program.Confined.run_agree call.request.confined Script.judge call.script
    (hs.agreeOn_owns ht hrows)).value

/-- **A read of an identity without a descriptor tells that it is not there**, whatever other rows it has. -/
theorem Step.unseen (h : Step may s request result t) (hs : Orderly s) (hcalm : ∀ trouble, ¬may trouble)
    (hreads : request.reads) (hi : request.identity.Fits) (hd : ¬request.identity.DescribedIn s) :
    result = request.unseen := by
  cases h with
  | refused hcheck => cases request <;> first | cases hcheck | cases hreads
  | unfit _ hstem =>
    rw [Identity.stem_of_fits hi] at hstem
    cases hstem
  | failed hm => exact absurd hm (hcalm _)
  | absent _ hneeds => cases request <;> first | rfl | cases hneeds
  | unselected _ hd' => exact absurd hd' hd
  | told _ hd' => exact absurd (hs.describedIn_of hd') hd
  | listed _ hd' => exact absurd hd' hd
  | answered =>
    have hnone := not_not.1 hd
    rw [Request.identity] at hnone
    rw [hnone]
    rfl
  | _ => cases hreads

theorem isUnseen (hs : Orderly s) (h : store.Holds s) (hi : i.Fits) (hd : ¬i.DescribedIn s) : i.IsUnseen store := by
  rintro request hreads rfl
  obtain ⟨u, hleads⟩ := request.calm.exists_leads hs h
  exact hleads.step.unseen hs request.calm_calm hreads hi hd

/-- **Reads tell the same of an identity** whose rows are the same, or which has no descriptor before and after. -/
theorem readsAlike (hs : Orderly s) (ht : Orderly t) (h : store.Holds s) (h' : store'.Holds t)
    (hsame : (∀ row, i.row? s row = i.row? t row) ∨ ¬i.DescribedIn s ∧ ¬i.DescribedIn t) :
    i.ReadsAlike store store' := by
  rintro request hreads rfl
  by_cases hi : request.identity.Fits
  · rcases hsame with hrows | ⟨hd, hd'⟩
    · exact request.calm.result_eq_of_rows hs ht h h' hrows
    · exact (isUnseen hs h hi hd request hreads rfl).trans (isUnseen ht h' hi hd' request hreads rfl).symm
  · -- an identity without keys has no rows at all
    have hnone : ∀ (u : Contents) row, request.identity.row? u row = none := fun u row =>
      Option.eq_none_iff_forall_ne_some.2 fun octets hrow => hi (Identity.fits_of_row? hrow)
    exact request.calm.result_eq_of_rows hs ht h h' fun row => (hnone s row).trans (hnone t row).symm

/-! ## Interruptions -/

theorem not_describedIn_eraseRows {rows : List RowName} (h : .descriptor ∈ rows) :
    ¬i.DescribedIn (i.eraseRows rows s) := by
  rw [Identity.DescribedIn, Identity.row?_eraseRows, if_pos ⟨rfl, h⟩]
  exact fun hne => hne rfl

theorem describedIn_eraseRows_iff {rows : List RowName} (h : .descriptor ∉ rows) :
    i.DescribedIn (i.eraseRows rows s) ↔ i.DescribedIn s := by
  rw [Identity.DescribedIn, Identity.row?_eraseRows, if_neg fun hrow => h hrow.2, Identity.DescribedIn]

section Interruption

variable {activity : Activity} {j : Identity} {cause : Trouble}

/-- A description that is interrupted changes nothing, or finds no descriptor and leaves none. -/
theorem Step.of_interrupted_describe {draft : Draft}
    (h : Step may s (.describe draft) (.error (.registry activity j cause)) t) :
    t = s ∨ ¬draft.identity.DescribedIn s ∧ ¬draft.identity.DescribedIn t := by
  cases h with
  | failed => exact Or.inl rfl
  | halfCleared _ hd hrows => exact Or.inr ⟨hd, mt (describedIn_eraseRows_iff hrows).1 hd⟩

/-- The erasure of a version that is interrupted changes nothing. -/
theorem Step.of_interrupted_eraseVersion {n : Int}
    (h : Step may s (.eraseVersion i n) (.error (.registry activity j cause)) t) : t = s := by
  cases h <;> rfl

/-- The erasure of an identity that is interrupted changes nothing, or leaves no descriptor. -/
theorem Step.of_interrupted_erase (h : Step may s (.erase i) (.error (.registry activity j cause)) t) :
    t = s ∨ i.Fits ∧ ¬i.DescribedIn t := by
  cases h with
  | failed => exact Or.inl rfl
  | halfErased _ hi => exact Or.inr ⟨hi, not_describedIn_eraseRows List.mem_cons_self⟩

end Interruption

/-- Reads tell the same of the identities that an event is not about. -/
theorem Event.Leads.readsAlike_of_ne {event : Event} (h : event.Leads s t) (hi : i ≠ event.call.request.identity) :
    i.ReadsAlike event.before event.after :=
  readsAlike h.orderly (h.step.orderly h.orderly) h.before h.after (Or.inl fun _ => (h.step.row?_of_ne hi).symm)

/-- Reads tell the same where an event changed nothing. -/
theorem Event.Leads.readsAlike_of_eq {event : Event} (h : event.Leads s t) (ht : t = s) :
    i.ReadsAlike event.before event.after := by
  subst ht
  exact readsAlike h.orderly h.orderly h.before h.after (Or.inl fun _ => rfl)

section Interruption

variable {activity : Activity} {j : Identity} {cause : Trouble} {event : Event} (h : event.Leads s t)
  (hresult : event.result = .error (.registry activity j cause))
include h hresult

/-- **An interrupted description** changes nothing that reads tell. -/
theorem Event.Leads.readsAlike_of_describe {draft : Draft} (hrequest : event.call.request = .describe draft) :
    i.ReadsAlike event.before event.after := by
  have hstep := h.step
  rw [hrequest, hresult] at hstep
  rcases hstep.of_interrupted_describe with ht | hd
  · exact h.readsAlike_of_eq ht
  · by_cases hi : i = draft.identity
    · exact readsAlike h.orderly (h.step.orderly h.orderly) h.before h.after (Or.inr (hi ▸ hd))
    · exact h.readsAlike_of_ne (by rwa [hrequest])

/-- **An interrupted erasure of a version** changes nothing that reads tell. -/
theorem Event.Leads.readsAlike_of_eraseVersion {k : Identity} {n : Int}
    (hrequest : event.call.request = .eraseVersion k n) : i.ReadsAlike event.before event.after := by
  have hstep := h.step
  rw [hrequest, hresult] at hstep
  exact h.readsAlike_of_eq hstep.of_interrupted_eraseVersion

/-- **An interrupted erasure of an identity** changes nothing that reads tell, or makes this identity absent and nothing
else. -/
theorem Event.Leads.readsAlike_or_isUnseen (hrequest : event.call.request = .erase i) :
    (∀ k : Identity, k.ReadsAlike event.before event.after) ∨
      i.IsUnseen event.after ∧ ∀ k ≠ i, k.ReadsAlike event.before event.after := by
  have hstep := h.step
  rw [hrequest, hresult] at hstep
  rcases hstep.of_interrupted_erase with ht | ⟨hi, hd⟩
  · exact Or.inl fun k => h.readsAlike_of_eq ht
  · refine Or.inr ⟨isUnseen (h.step.orderly h.orderly) h.after hi hd, fun k hk => ?_⟩
    exact h.readsAlike_of_ne (by rwa [hrequest])

end Interruption

/-! ## Starting over -/

/-- The event is a description of the identity that succeeds. -/
def Event.Describes (i : Identity) (event : Event) : Prop :=
  ∃ draft, event.call.request = .describe draft ∧ draft.identity = i ∧ event.result = .ok .done

/-- A descriptor comes only with a description that succeeds. -/
theorem Step.describes (h : Step may s request result t) (hd : ¬i.DescribedIn s) (hd' : i.DescribedIn t) :
    ∃ draft, request = .describe draft ∧ draft.identity = i ∧ result = .ok .done := by
  by_cases hi : i = request.identity
  · subst hi
    cases h with
    | halfCleared _ _ hrows => exact absurd ((describedIn_eraseRows_iff hrows).1 hd') hd
    | described => exact ⟨_, rfl, rfl, rfl⟩
    | redescribed => exact ⟨_, rfl, rfl, rfl⟩
    | halfAppended _ _ hd'' => exact absurd hd'' hd
    | appended _ hd'' => exact absurd hd'' hd
    | versionErased _ hd'' => exact absurd hd'' hd
    | halfErased => exact absurd hd' (not_describedIn_eraseRows List.mem_cons_self)
    | erased =>
      rw [← Identity.eraseRows_cons] at hd'
      exact absurd hd' (not_describedIn_eraseRows List.mem_cons_self)
    | _ => exact absurd hd' hd
  · rw [Identity.DescribedIn, h.row?_of_ne hi] at hd'
    exact absurd hd' hd

/-- Without a description that succeeds there comes no descriptor. -/
theorem Trail.not_describedIn {events : List Event} (h : Trail s events t) (hd : ¬i.DescribedIn s)
    (hevents : ∀ event ∈ events, ¬event.Describes i) : ¬i.DescribedIn t := by
  induction h with
  | nil => exact hd
  | cons h hrest ih =>
    obtain ⟨hevent, hevents⟩ := List.forall_mem_cons.1 hevents
    exact ih (fun hd' => hevent (h.step.describes hd hd')) hevents

/-- **A description of an identity without a descriptor leaves nothing but a descriptor.** -/
theorem Step.fresh {draft : Draft} (h : Step may s (.describe draft) (.ok .done) t) (hs : Orderly s)
    (hd : ¬draft.identity.DescribedIn s) :
    draft.identity.DescribedIn t ∧ ∀ row, row ≠ .descriptor → draft.identity.row? t row = none := by
  cases h with
  | described _ hi =>
    refine ⟨by simp [Identity.DescribedIn, Identity.row?_putDescriptor hi], fun row hrow => ?_⟩
    rw [Identity.row?_putDescriptor hi, if_neg hrow, hs.row?_cleared hrow]
  | redescribed _ _ hd' => exact absurd hd' hd

section Fresh

variable (hs : Orderly s) (h : store.Holds s) (hd : i.DescribedIn s)
  (hrows : ∀ row, row ≠ .descriptor → i.row? s row = none)
include hs hd hrows

theorem versionsIn_of_fresh : i.versionsIn s = [] := by
  rw [List.eq_nil_iff_forall_not_mem]
  rintro ⟨n, content⟩ hmem
  rw [hs.mem_versionsIn (fits_of_describedIn hd), hrows _ (by simp)] at hmem
  cases hmem

theorem latestIn_of_fresh : i.latestIn s = 0 := by
  rw [Identity.latestIn, versionsIn_of_fresh hs hd hrows, List.foldl_nil, Identity.counterIn, hrows _ (by simp)]
  rfl

include h

/-- Where there is nothing but a descriptor, reads find no version. -/
theorem isFresh : i.IsFresh store := by
  have hversions := versionsIn_of_fresh hs hd hrows
  refine ⟨?_, ?_, ?_, fun n => ?_⟩
  · obtain ⟨t, hleads⟩ := (Request.contains i).calm.exists_leads hs h
    exact hleads.step.contains_of_calm (Request.calm_calm _) hd
  · obtain ⟨t, hleads⟩ := (Request.numbers i).calm.exists_leads hs h
    rw [hleads.step.numbers_of_calm (Request.calm_calm _) hd, hversions]
    rfl
  · obtain ⟨t, hleads⟩ := (Request.entry i none).calm.exists_leads hs h
    rw [hleads.step.entry_unselected_of_calm (Request.calm_calm _) hd (by rw [hversions]; rfl),
      Failure.worded_of_none rfl]
  · obtain ⟨t, hleads⟩ := (Request.entry i (some n)).calm.exists_leads hs h
    exact hleads.step.entry_unselected_of_calm (Request.calm_calm _) hd (by rw [hversions]; rfl)

/-- Where there is nothing but a descriptor, the first content gets the number 1. -/
theorem append_of_fresh {content : Bytes} (hne : content ≠ []) :
    ((Request.append i (some content)).calm.event store).result = .ok (.number 1) := by
  obtain ⟨t, hleads⟩ := (Request.append i (some content)).calm.exists_leads hs h
  have hlatest := latestIn_of_fresh hs hd hrows
  rcases hleads.step.append_of_calm (Request.calm_calm _) hd hne with ⟨-, hresult, -⟩ | ⟨hfull, -, -⟩
  · rw [hresult, hlatest]
  · rw [hlatest] at hfull
    exact absurd hfull (by decide)

end Fresh

/-- **A description of an absent identity** makes it one without versions, whose first content gets the number 1. -/
theorem Event.Leads.fresh {event : Event} (h : event.Leads s t) (hd : ¬i.DescribedIn s) (hevent : event.Describes i) :
    i.IsFresh event.after ∧ ∀ content, content ≠ [] →
      ((Request.append i (some content)).calm.event event.after).result = .ok (.number 1) := by
  obtain ⟨draft, hrequest, rfl, hresult⟩ := hevent
  have hstep := h.step
  rw [hrequest, hresult] at hstep
  have ht := h.step.orderly h.orderly
  obtain ⟨hd', hrows⟩ := hstep.fresh h.orderly hd
  exact ⟨isFresh ht h.after hd' hrows, fun content hne => append_of_fresh ht h.after hd' hrows hne⟩

/-! ## Any calls with any failures -/

/-- **Interruptions are harmless.** In a run with any failures, a description or the erasure of a version that a failure
of the table ends changes nothing that reads tell, of any identity; the erasure of an identity that is ended so changes
nothing either, or makes this identity absent and nothing else. And where an identity has no descriptor, whatever rows
are left of it, the next description that succeeds makes it one without versions, whose first content gets the
number 1. -/
theorem interrupted_harmless (hnew : store.IsNew) (calls : List Call) :
    (∀ event ∈ history calls store, ∀ activity j cause, event.result = .error (.registry activity j cause) →
      ((∃ draft, event.call.request = .describe draft) ∨ (∃ i n, event.call.request = .eraseVersion i n) →
        ∀ k : Identity, k.ReadsAlike event.before event.after) ∧
      ∀ i, event.call.request = .erase i →
        (∀ k : Identity, k.ReadsAlike event.before event.after) ∨
          i.IsUnseen event.after ∧ ∀ k ≠ i, k.ReadsAlike event.before event.after) ∧
    ∀ (i : Identity) (more : List Call), ¬i.IsDescribed (afterCalls calls store) →
      (∀ event ∈ history more (afterCalls calls store), ¬event.Describes i) →
      ∀ (call : Call) (event : Event), event = call.event (afterCalls (calls ++ more) store) → event.Describes i →
        i.IsFresh event.after ∧ ∀ content, content ≠ [] →
          ((Request.append i (some content)).calm.event event.after).result = .ok (.number 1) := by
  obtain ⟨s, htrail, hs, hholds⟩ := exists_trail calls Orderly.empty hnew.holds
  constructor
  · intro event hmem activity j cause hresult
    obtain ⟨u, v, h⟩ := htrail.leads_of_mem hmem
    refine ⟨?_, fun i hrequest => h.readsAlike_or_isUnseen hresult hrequest⟩
    rintro (⟨draft, hrequest⟩ | ⟨i, n, hrequest⟩) k
    · exact h.readsAlike_of_describe hresult hrequest
    · exact h.readsAlike_of_eraseVersion hresult hrequest
  · rintro i more hnone hmore call event rfl hevent
    rw [Identity.isDescribed_iff hholds] at hnone
    obtain ⟨u, hu, hou, hafter⟩ := exists_trail more hs hholds
    rw [← afterCalls_append] at hafter
    obtain ⟨v, h⟩ := call.exists_leads hou hafter
    exact h.fresh (hu.not_describedIn hnone hmore) hevent

instance (result : Except Failure Reply) (b : Bool) : Decidable (result = .ok (.answer b)) :=
  match result with
  | .ok (.answer c) => decidable_of_iff (c = b) (by simp)
  | .ok .done | .ok (.number _) | .ok (.entry _) | .ok (.numbers _) | .error _ => isFalse nofun

namespace Sample

/-- An erasure that is cut off before the version goes. -/
def halfErasure : Call := ⟨.erase orders, .strike 2 ⟨"disk full"⟩ []⟩

/-- A description that is cut off before the version goes. -/
def halfDescription : Call := ⟨.describe draft, .strike 2 ⟨"disk full"⟩ []⟩

end Sample

/-- After an upload the identity is erased and then described anew; the erasure and a first description are cut off. -/
theorem interrupted_harmless_orders :
    (∀ event, event = Sample.halfErasure.event (afterCalls Sample.uploaded (.memory .empty)) →
      event.result = .error (.registry .delete Sample.orders ⟨"disk full"⟩) ∧
        Sample.orders.IsUnseen event.after ∧ ∀ k ≠ Sample.orders, k.ReadsAlike event.before event.after) ∧
    ∀ event, event = (Request.describe Sample.draft).calm.event
        (afterCalls (Sample.uploaded ++ [Sample.halfErasure] ++ [Sample.halfDescription]) (.memory .empty)) →
      event.Describes Sample.orders ∧ Sample.orders.IsFresh event.after ∧
        ((Request.append Sample.orders (some [2])).calm.event event.after).result = .ok (.number 1) := by
  obtain ⟨hinterrupted, hagain⟩ := interrupted_harmless .memory (Sample.uploaded ++ [Sample.halfErasure])
  constructor
  · rintro event rfl
    have hmem : Sample.halfErasure.event (afterCalls Sample.uploaded (.memory .empty)) ∈
        history (Sample.uploaded ++ [Sample.halfErasure]) (.memory .empty) := by
      rw [history_append]
      exact List.mem_append_right _ List.mem_cons_self
    have hresult : (Sample.halfErasure.event (afterCalls Sample.uploaded (.memory .empty))).result =
        .error (.registry .delete Sample.orders ⟨"disk full"⟩) := by decide +kernel
    refine ⟨hresult, ((hinterrupted _ hmem _ _ _ hresult).2 Sample.orders rfl).resolve_left fun halike => ?_⟩
    have hbefore : ((Request.contains Sample.orders).calm.event
        (afterCalls Sample.uploaded (.memory .empty))).result = .ok (.answer true) := by decide +kernel
    have hafter : ((Request.contains Sample.orders).calm.event (Sample.halfErasure.event
        (afterCalls Sample.uploaded (.memory .empty))).after).result = .ok (.answer false) := by decide +kernel
    have hsame := halike Sample.orders (.contains Sample.orders) rfl rfl
    rw [hafter] at hsame
    cases hbefore.symm.trans hsame
  · rintro event rfl
    have hdescribes : ((Request.describe Sample.draft).calm.event
        (afterCalls (Sample.uploaded ++ [Sample.halfErasure] ++ [Sample.halfDescription])
          (.memory .empty))).Describes Sample.orders := ⟨Sample.draft, rfl, rfl, by decide +kernel⟩
    have hmore : ∀ event ∈ history [Sample.halfDescription]
        (afterCalls (Sample.uploaded ++ [Sample.halfErasure]) (.memory .empty)), ¬event.Describes Sample.orders := by
      rintro event hevent ⟨draft, -, -, hresult⟩
      rw [List.mem_singleton.1 hevent] at hresult
      exact absurd hresult (by decide +kernel)
    obtain ⟨hfresh, happend⟩ :=
      hagain Sample.orders [Sample.halfDescription] (by decide +kernel) hmore _ _ rfl hdescribes
    exact ⟨hdescribes, hfresh, happend [2] (by simp)⟩

end Schemata.Catalog

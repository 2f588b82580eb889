import Schemata.Proofs.Service.Demands

/-!
# Statuses of the service

- From orderly contents a demand comes to a success, to what is missing, to an error, or to no envelope where a number
  cannot be written, and the table decides which unless a command fails (`Judged`, `Served.judged`). Where a command
  fails, it comes to an error (`Demand.error_of_struck`).
- Uses of the registry and of services, with any failures, keep contents orderly (`exists_orderly`). So every row can
  be read again, and the registry fails in three ways and the service answers with an envelope, whose status tells what
  the table holds, unless a number of more than 4300 digits is to be written (`outcomes_foreseen`). With such a number
  both fail otherwise (`not_outcomes_foreseen`).
-/

namespace Schemata

open Catalog
open Table (Contents Outcome Script Store Trouble)

namespace Service

variable {may : Trouble → Prop} {s t : Contents} {store : Store} {request : Request} {envelope : Envelope}
  {r : Except Failure Envelope}

/-! ## What a status tells -/

/-- The identity or the version that is addressed is not there. It is to be there for an erasure, too. -/
def Missed (request : Request) (store : Store) : Prop :=
  match request with
  | .erase i => ¬i.IsDescribed store
  | request => request.Misses store

theorem Served.orderly (h : Served may s request r t) (hs : Orderly s) : Orderly t := by
  cases h with
  | told _ h => exact h.orderly hs
  | unsure h => exact h.orderly hs
  | absent => exact hs

/-- The ways in which a demand can end, each with what the table then decides. -/
inductive Judged (may : Trouble → Prop) (request : Request) (store : Store) : Except Failure Envelope → Prop
  /-- What is addressed is there, and the inputs are accepted. -/
  | success {envelope : Envelope} (hstatus : envelope.status = Envelope.okStatus) (hfound : ¬Missed request store)
    (haccepted : ¬request.Refused store) : Judged may request store (.ok envelope)
  | missing {message : String} (hmissed : Missed request store) (haccepted : ¬request.Refused store)
    (hwritable : ¬request.Unwritable store) : Judged may request store (.ok (.notFound message))
  | refused {message : String} (hrefused : request.Refused store) (hwritable : ¬request.Unwritable store) :
    Judged may request store (.ok (.error message))
  /-- What is missing or refused cannot be put into words. -/
  | unwritable (hlong : request.Unwritable store) : Judged may request store (.error .unwritable)
  | failed {message : String} {trouble : Trouble} (hm : may trouble) : Judged may request store (.ok (.error message))

/-- **What decides how a demand ends.** -/
theorem Served.judged (h : Served may s request r t) (hs : Orderly s) (hholds : store.Holds s) :
    Judged may request store r := by
  cases h with
  | told hd h htells =>
    -- an identity to erase is there, so what is missed is missed by the request itself
    have hmissed : Missed request store ↔ request.Misses store := by
      cases request with
      | erase i => exact iff_of_false (fun hnone => hnone ((Identity.isDescribed_iff hholds).2 (hd i rfl))) (·.1)
      | _ => exact Iff.rfl
    cases h.decided hs hholds with
    | done hfound haccepted =>
      cases htells with
      | done hstatus => exact .success hstatus (mt hmissed.1 hfound) haccepted
    | missing hmisses haccepted hwritable =>
      cases htells
      exact .missing (hmissed.2 hmisses) haccepted hwritable
    | refused hrefused hwritable =>
      cases htells
      exact .refused hrefused hwritable
    | unwritable hlong =>
      cases htells
      exact .unwritable hlong
    | failed hm =>
      cases htells
      exact .failed hm
  | @unsure i failure r t h htells =>
    have herasure : ¬(Request.erase i).Unwritable store := Request.not_unwritable rfl store
    cases h.decided hs hholds with
    | missing hmisses => exact hmisses.1.elim
    | refused hrefused =>
      cases htells
      -- the look at the descriptor is refused for the same reasons as the erasure
      exact .refused (hrefused.imp id (Or.imp id id)) herasure
    | unwritable hlong => exact absurd hlong herasure
    | failed hm =>
      cases htells
      exact .failed hm
  | absent hi hd =>
    exact .missing (mt (Identity.isDescribed_iff hholds).1 hd) (Request.not_refused rfl hi id)
      (Request.not_unwritable rfl store)

/-! ## Runs -/

/-- The run of a demand on a table behind a script of failures. -/
def Demand.run (service : Service) (demand : Demand) (script : Script) (store : Store) :
    Outcome (Script × Store) (Except Failure Envelope) :=
  (demand.work service).run.run (Store.backend.guarded Script.judge) (script, store)

/-- A script fails one of the commands of a demand. -/
def Demand.Struck (service : Service) (demand : Demand) (script : Script) (store : Store) : Prop :=
  (demand.work service).run.struck Store.backend script store = true

instance (service : Service) (demand : Demand) (script : Script) (store : Store) :
    Decidable (demand.Struck service script store) := inferInstanceAs (Decidable (_ = true))

section Demand

variable (context : String) (demand : Demand) (script : Script)

/-- A demand is served, whatever fails in it. -/
theorem Demand.served (hs : Orderly s) (hholds : store.Holds s) :
    ∃ t, (demand.run (standard context) script store).state.2.Holds t ∧
      Served (fun trouble => some trouble ∈ script) s (demand.request (standard context))
        (demand.run (standard context) script store).value t := by
  obtain ⟨t, ht, hends⟩ := Work.ends_run Store.represents (demand.work (standard context)) script hholds
  exact ⟨t, ht, demand.served_of_ends hs hends⟩

/-- A demand that no failure strikes is served as if none were laid down. -/
theorem Demand.served_of_not_struck (hs : Orderly s) (hholds : store.Holds s)
    (hstruck : ¬demand.Struck (standard context) script store) :
    ∃ t, Served Table.Calm s (demand.request (standard context))
      (demand.run (standard context) script store).value t := by
  obtain ⟨t, -, hends⟩ := Work.ends_run_calm Store.represents (demand.work (standard context)) hholds
  have hvalue := (Table.Program.run_of_not_struck _ (Bool.eq_false_iff.2 hstruck)).1
  rw [← hvalue, ← Demand.run] at hends
  exact ⟨t, demand.served_of_ends hs hends⟩

/-- A demand that a failure strikes ends with an error. -/
theorem Demand.error_of_struck (hs : Orderly s) (hholds : store.Holds s)
    (hstruck : demand.Struck (standard context) script store) :
    ∃ message, (demand.run (standard context) script store).value = .ok (.error message) := by
  obtain ⟨x, hwork, hattempt⟩ := demand.exists_attempt context
  have hstops : (demand.work (standard context)).run.Stops _ :=
    hwork ▸ stops_enveloped (hattempt.of_compositional Work.compositional_stops)
  rcases hstops.value hstruck with herror | ⟨trouble, htrouble⟩
  · exact herror
  · obtain ⟨t, -, hserved⟩ := demand.served context script hs hholds
    have hjudged := hserved.judged hs hholds
    rw [Demand.run, htrouble] at hjudged
    cases hjudged

/-- **What decides the end of a demand**: the table, the inputs, and whether a failure strikes. -/
theorem Demand.judged (hs : Orderly s) (hholds : store.Holds s) :
    (demand.Struck (standard context) script store ∧
      ∃ message, (demand.run (standard context) script store).value = .ok (.error message)) ∨
    ¬demand.Struck (standard context) script store ∧ Judged Table.Calm (demand.request (standard context)) store
      (demand.run (standard context) script store).value := by
  by_cases hstruck : demand.Struck (standard context) script store
  · exact .inl ⟨hstruck, demand.error_of_struck context script hs hholds hstruck⟩
  · obtain ⟨t, hserved⟩ := demand.served_of_not_struck context script hs hholds hstruck
    exact .inr ⟨hstruck, hserved.judged hs hholds⟩

end Demand

/-! ## Any uses with any failures -/

/-- A call of the registry, or a demand on a service with its default context and the failures of its commands. -/
inductive Use where
  | ofRegistry (call : Call)
  | ofService (context : String) (demand : Demand) (script : Script)

/-- The table after a use. -/
def Use.after : Use → Store → Store
  | .ofRegistry call, store => (call.event store).after
  | .ofService context demand script, store => (demand.run (standard context) script store).state.2

/-- The table after uses. -/
def afterUses : List Use → Store → Store
  | [], store => store
  | use :: rest, store => afterUses rest (use.after store)

theorem Use.exists_orderly (use : Use) (hs : Orderly s) (hholds : store.Holds s) :
    ∃ t, Orderly t ∧ (use.after store).Holds t := by
  cases use with
  | ofRegistry call =>
    obtain ⟨t, hleads⟩ := call.exists_leads hs hholds
    exact ⟨t, hleads.step.orderly hs, hleads.after⟩
  | ofService context demand script =>
    obtain ⟨t, ht, hserved⟩ := demand.served context script hs hholds
    exact ⟨t, hserved.orderly hs, ht⟩

/-- **Uses keep contents orderly.** -/
theorem exists_orderly (uses : List Use) (hs : Orderly s) (hholds : store.Holds s) :
    ∃ t, Orderly t ∧ (afterUses uses store).Holds t := by
  induction uses generalizing store s with
  | nil => exact ⟨s, hs, hholds⟩
  | cons use rest ih =>
    obtain ⟨t, ht, hafter⟩ := use.exists_orderly hs hholds
    exact ih ht hafter

/-- **A demand ends without an envelope** where its number is too long and no failure strikes it. -/
theorem Demand.value_eq_unwritable_iff (context : String) (demand : Demand) (script : Script) (hs : Orderly s)
    (hholds : store.Holds s) :
    (demand.run (standard context) script store).value = .error .unwritable ↔
      (demand.request (standard context)).Unwritable store ∧ ¬demand.Struck (standard context) script store := by
  rcases demand.judged context script hs hholds with ⟨hstruck, message, hvalue⟩ | ⟨hstruck, hjudged⟩
  · rw [hvalue]
    exact iff_of_false (by simp) fun h => h.2 hstruck
  · generalize (demand.run (standard context) script store).value = r at hjudged ⊢
    have hmissed : (demand.request (standard context)).Unwritable store →
        Missed (demand.request (standard context)) store := by
      intro hlong
      have hmisses := hlong.misses hs hholds
      cases hrequest : demand.request (standard context) with
      | erase i =>
        rw [hrequest] at hmisses
        exact hmisses.1.elim
      | _ =>
        rw [hrequest] at hmisses
        exact hmisses
    cases hjudged with
    | success _ hfound => exact iff_of_false (by simp) fun h => hfound (hmissed h.1)
    | missing _ _ hwritable => exact iff_of_false (by simp) fun h => hwritable h.1
    | refused _ hwritable => exact iff_of_false (by simp) fun h => hwritable h.1
    | unwritable hlong => exact iff_of_true rfl ⟨hlong, hstruck⟩
    | failed hm => exact hm.elim

/-- **Outcomes are foreseen.** After any uses of a new table, with any failures: the registry can read all rows of every
identity. A request to the registry ends with a reply, a refusal, what is missing, or a failure of its activity; and a
demand on a service ends with an envelope. Its status is one of three and it has values only if this is 200; it is 404
exactly where the identity or the version that is addressed is not there and neither a refusal nor a failure comes
before, and 500 exactly where there is a refusal or a failure. Only a number of more than 4300 digits, of a version of
an identity that is there, cannot be written: unless a failure strikes, the registry then ends otherwise and the service
without an envelope. -/
theorem outcomes_foreseen (hnew : store.IsNew) (uses : List Use) :
    (∀ i : Identity, i.Fits → i.IsReadable (afterUses uses store)) ∧
    (∀ call : Call,
      ((call.event (afterUses uses store)).result = .error .unwritable ↔
        call.request.Unwritable (afterUses uses store) ∧ ¬call.Struck (afterUses uses store)) ∧
      ((call.event (afterUses uses store)).result ≠ .error .unwritable →
        (∃ reply, (call.event (afterUses uses store)).result = .ok reply) ∨
          (∃ reason, (call.event (afterUses uses store)).result = .error (.invalid reason)) ∨
            (∃ what, (call.event (afterUses uses store)).result = .error (.missing what)) ∨
              ∃ activity i cause, (call.event (afterUses uses store)).result = .error (.registry activity i cause))) ∧
    ∀ (context : String) (demand : Demand) (script : Script),
      ((demand.run (standard context) script (afterUses uses store)).value = .error .unwritable ↔
        (demand.request (standard context)).Unwritable (afterUses uses store) ∧
          ¬demand.Struck (standard context) script (afterUses uses store)) ∧
      ((demand.run (standard context) script (afterUses uses store)).value ≠ .error .unwritable → ∃ envelope,
        (demand.run (standard context) script (afterUses uses store)).value = .ok envelope ∧
          (envelope.status = 200 ∨ envelope.status = 404 ∨ envelope.status = 500) ∧
          envelope.count = envelope.values.length ∧ (envelope.status ≠ 200 → envelope.values = []) ∧
          (envelope.status = 404 ↔ Missed (demand.request (standard context)) (afterUses uses store) ∧
            ¬(demand.request (standard context)).Refused (afterUses uses store) ∧
              ¬demand.Struck (standard context) script (afterUses uses store)) ∧
          (envelope.status = 500 ↔ (demand.request (standard context)).Refused (afterUses uses store) ∨
            demand.Struck (standard context) script (afterUses uses store))) := by
  obtain ⟨s, hs, hholds⟩ := exists_orderly uses Orderly.empty hnew.holds
  refine ⟨fun i hi => hs.isReadable hholds hi, fun call => ⟨call.result_eq_unwritable_iff hs hholds, fun hne => ?_⟩,
    fun context demand script => ⟨demand.value_eq_unwritable_iff context script hs hholds, fun hne => ?_⟩⟩
  · obtain ⟨t, hleads⟩ := call.exists_leads hs hholds
    have hdecided : Decided _ call.request (afterUses uses store) (call.event (afterUses uses store)).result :=
      hleads.step.decided hs hholds
    generalize (call.event (afterUses uses store)).result = result at hne hdecided ⊢
    cases hdecided with
    | done => exact .inl ⟨_, rfl⟩
    | missing => exact .inr (.inr (.inl ⟨_, rfl⟩))
    | refused => exact .inr (.inl ⟨_, rfl⟩)
    | unwritable => exact absurd rfl hne
    | failed => exact .inr (.inr (.inr ⟨_, _, _, rfl⟩))
  · have h404 : (404 : Int) ≠ 500 := by decide
    rcases demand.judged context script hs hholds with ⟨hstruck, message, hvalue⟩ | ⟨hstruck, hjudged⟩
    · refine ⟨_, hvalue, .inr (.inr rfl), rfl, fun _ => rfl, ?_, iff_of_true rfl (.inr hstruck)⟩
      exact iff_of_false h404.symm fun h => h.2.2 hstruck
    generalize (demand.run (standard context) script (afterUses uses store)).value = r at hne hjudged ⊢
    cases hjudged with
    | @success envelope hstatus hfound haccepted =>
      have hok : envelope.status = 200 := hstatus
      refine ⟨envelope, rfl, .inl hok, rfl, fun hne => absurd hok hne, ?_, ?_⟩
      · exact iff_of_false (by rw [hok]; decide) fun h => hfound h.1
      · exact iff_of_false (by rw [hok]; decide) fun h => h.elim haccepted hstruck
    | missing hmissed haccepted =>
      refine ⟨_, rfl, .inr (.inl rfl), rfl, fun _ => rfl, iff_of_true rfl ⟨hmissed, haccepted, hstruck⟩, ?_⟩
      exact iff_of_false h404 fun h => h.elim haccepted hstruck
    | refused hrefused =>
      refine ⟨_, rfl, .inr (.inr rfl), rfl, fun _ => rfl, ?_, iff_of_true rfl (.inl hrefused)⟩
      exact iff_of_false h404.symm fun h => h.2.1 hrefused
    | unwritable => exact absurd rfl hne
    | failed hm => exact hm.elim

namespace Sample

/-- An identity is described, a content is stored and not counted, and the erasure is cut off after the descriptor. -/
def leftovers : List Use :=
  [.ofService "main" (.describe none (some "orders") (some "Orders") (some "Order events") (some "avro")) [],
    .ofRegistry ⟨.append ⟨"main", "orders"⟩ (some [1]), [none, none, none, none, some ⟨"disk full"⟩]⟩,
    .ofService "main" (.erase (some "") (some "orders")) [none, none, none, some ⟨"disk full"⟩]]

/-- The versions are asked for. -/
def listing : Demand := .numbers none (some "orders")

/-- An identity is described. -/
def described : List Use :=
  [.ofService "main" (.describe none (some "orders") (some "Orders") (some "Order events") (some "avro")) []]

/-- A version of it is asked for whose number is too long. -/
def fetch : Demand := .entry none (some "orders") (some Catalog.Sample.endless)

theorem unwritable_fetch :
    (fetch.request (standard "main")).Unwritable (afterUses described (.memory .empty)) :=
  ⟨by decide +kernel, _, rfl, not_isWritable_iff.1 Catalog.Sample.not_isWritable_endless⟩

/-- Without failures none strikes it. -/
theorem not_struck_fetch : ¬fetch.Struck (standard "main") [] (afterUses described (.memory .empty)) :=
  Bool.eq_false_iff.1 (Table.Program.struck_nil _ _)

end Sample

/-- What is left cannot be seen, and a failure hides even that. A number that is too long has no envelope. -/
theorem outcomes_foreseen_leftovers :
    (∃ envelope, (Sample.listing.run (standard "main") [] (afterUses Sample.leftovers (.memory .empty))).value =
      .ok envelope ∧ envelope.status = 404 ∧ envelope.values = []) ∧
    (∃ envelope, (Sample.listing.run (standard "main") [some ⟨"disk full"⟩]
      (afterUses Sample.leftovers (.memory .empty))).value = .ok envelope ∧ envelope.status = 500) ∧
    (Sample.fetch.run (standard "main") [] (afterUses Sample.described (.memory .empty))).value =
      .error .unwritable := by
  obtain ⟨-, -, htold⟩ := outcomes_foreseen .memory Sample.leftovers
  -- a listing names no number
  have hshort := Request.not_unwritable (show (Sample.listing.request (standard "main")).version? = none from rfl)
  refine ⟨?_, ?_, ?_⟩
  · obtain ⟨hunwritable, hends⟩ := htold "main" Sample.listing []
    obtain ⟨envelope, hvalue, -, -, hvalues, hmissing, -⟩ := hends fun h => hshort _ (hunwritable.1 h).1
    have hstatus : envelope.status = 404 := by
      refine hmissing.2 ⟨?_, Request.not_refused rfl (by decide) id, by decide +kernel⟩
      have hnone : ¬Identity.IsDescribed ⟨"main", "orders"⟩ (afterUses Sample.leftovers (.memory .empty)) := by
        decide +kernel
      exact ⟨trivial, .inl hnone⟩
    exact ⟨envelope, hvalue, hstatus, hvalues (by rw [hstatus]; decide)⟩
  · obtain ⟨hunwritable, hends⟩ := htold "main" Sample.listing [some ⟨"disk full"⟩]
    obtain ⟨envelope, hvalue, -, -, -, -, hfailed⟩ := hends fun h => hshort _ (hunwritable.1 h).1
    exact ⟨envelope, hvalue, hfailed.2 (.inr (by decide +kernel))⟩
  · obtain ⟨-, -, htold⟩ := outcomes_foreseen .memory Sample.described
    exact (htold "main" Sample.fetch []).1.2 ⟨Sample.unwritable_fetch, Sample.not_struck_fetch⟩

/-- **Not every request ends with a reply, a refusal, what is missing, or a failure of its activity**, and not every
demand with an envelope: a number may be too long to be written. -/
theorem not_outcomes_foreseen :
    (¬∀ (uses : List Use) (call : Call), (∃ reply, (call.event (afterUses uses (.memory .empty))).result = .ok reply) ∨
      (∃ reason, (call.event (afterUses uses (.memory .empty))).result = .error (.invalid reason)) ∨
        (∃ what, (call.event (afterUses uses (.memory .empty))).result = .error (.missing what)) ∨
          ∃ activity i cause, (call.event (afterUses uses (.memory .empty))).result =
            .error (.registry activity i cause)) ∧
    ¬∀ (uses : List Use) (context : String) (demand : Demand) (script : Script), ∃ envelope,
      (demand.run (standard context) script (afterUses uses (.memory .empty))).value = .ok envelope := by
  obtain ⟨s, hs, hholds⟩ := exists_orderly Sample.described Orderly.empty Store.IsNew.memory.holds
  constructor
  · intro h
    have hresult := (Call.result_eq_unwritable_iff hs hholds).2
      ⟨Sample.unwritable_fetch, (Sample.fetch.request (standard "main")).not_struck_calm _⟩
    have hends := h Sample.described (Sample.fetch.request (standard "main")).calm
    rw [hresult] at hends
    rcases hends with ⟨_, hends⟩ | ⟨_, hends⟩ | ⟨_, hends⟩ | ⟨_, _, _, hends⟩ <;> cases hends
  · intro h
    obtain ⟨envelope, hvalue⟩ := h Sample.described "main" Sample.fetch []
    have hunwritable := (Sample.fetch.value_eq_unwritable_iff "main" [] hs hholds).2
      ⟨Sample.unwritable_fetch, Sample.not_struck_fetch⟩
    cases hvalue.symm.trans hunwritable

end Service

end Schemata

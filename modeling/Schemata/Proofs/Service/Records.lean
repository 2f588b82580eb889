import Schemata.Proofs.Service.Statuses
import Schemata.Proofs.Table.Noted

/-!
# Records of the service

- What a demand tries notes nothing on the service's channel (`Attempt.silent`), since the registry notes on its own. So
  all records there are those of the failures that are told (`run_enveloped`), one for each.
- How an attempt ends (`Attempt.attempted`) and whether a failure strikes decide what is told, so each outcome that is
  no success has one record, at the level of its kind (`failures_noted`). One such outcome is told without a failure and
  has none: an identity to erase that is not there.
-/

namespace Schemata.Service

open Catalog
open Table (Backend Contents Outcome Program Script Store Trouble)
open Log (Channel Level Record)

/-! ## Silent works -/

/-- The work notes nothing on the service's channel. -/
def Silent {α : Type} (x : Work α) : Prop := x.run.NotesOnly (·.channel ≠ .service)

theorem compositional_silent {own : Bytes → Prop} : Work.Compositional own fun _ x => Silent x where
  of_pure _ := trivial
  of_throw _ := trivial
  of_ask _ _ := fun
    | .ok _ => trivial
    | .error _ => trivial
  of_noteDone _ _ _ := ⟨show Channel.registry ≠ .service by decide, trivial⟩
  of_bind hx hf := Program.NotesOnly.bind hx fun
    | .ok a => hf a
    | .error _ => trivial
  of_within hx := Program.NotesOnly.bind hx fun
    | .ok _ => trivial
    | .error failure => by
      cases failure with
      | table trouble => exact ⟨show Channel.registry ≠ .service by decide, trivial⟩
      | _ => trivial

/-- What a demand tries is silent. -/
theorem Attempt.silent {request : Request} {x : Work Envelope} (h : Attempt request x) : Silent x :=
  h.of_compositional compositional_silent

/-! ## What is noted of failures -/

/-- The record of a failure. -/
def failureRecord (level : Level) (operation verb : String) (i : Identity) (report : Report) : Record :=
  .plain .service level (operation ++ " " ++ verb ++ ": " ++ report.message)
    [("schema_id", .string i.text), ("error_code", .string report.code)]

/-- What is noted of a result when it is told. -/
def noted (operation : String) (i : Identity) : Except Failure Envelope → List Record
  | .ok _ => []
  | .error failure =>
    match failure, failure.report? with
    | .missing _, some report => [failureRecord .warning operation "failed" i report]
    | .invalid _, some report => [failureRecord .warning operation "rejected" i report]
    | .registry _ _ _, some report => [failureRecord .error operation "failed" i report]
    | _, _ => []

section Run

variable {σ : Type} {operation : String} {i : Identity} {x : Work Envelope}

/-- **Telling a result** changes nothing but that its failure becomes an envelope and a record. -/
theorem run_enveloped (backend : Backend σ) (s : σ) :
    (enveloped operation i x).run.run backend s =
      ⟨(x.run.run backend s).value.tryCatch told, (x.run.run backend s).state,
        (x.run.run backend s).log ++ noted operation i (x.run.run backend s).value⟩ := by
  refine (Program.run_bind backend x.run _ s).trans ?_
  cases (x.run.run backend s).value with
  | ok envelope => rfl
  | error failure => cases failure <;> rfl

/-- Telling asks nothing, so a script strikes what is told where it strikes the work. -/
theorem struck_enveloped (backend : Backend σ) (script : Script) (s : σ) :
    (enveloped operation i x).run.struck backend script s = x.run.struck backend script s := by
  refine Program.struck_bind (fun r => ?_) backend script s
  cases r with
  | ok envelope => trivial
  | error failure => cases failure <;> trivial

/-- The service's records of a silent work that is told are those of its failure. -/
theorem on_enveloped (hx : Silent x) (backend : Backend σ) (s : σ) :
    ((enveloped operation i x).run.run backend s).on .service = noted operation i (x.run.run backend s).value := by
  have hnone : ((x.run.run backend s).log.filter (·.channel = .service)) = [] := hx.on_eq_nil backend s
  rw [run_enveloped, Outcome.on, List.filter_append, hnone, List.nil_append, List.filter_eq_self]
  intro record h
  cases hvalue : (x.run.run backend s).value with
  | ok envelope =>
    rw [hvalue] at h
    cases h
  | error failure =>
    rw [hvalue] at h
    cases failure with
    | missing | invalid | registry =>
      rw [List.mem_singleton.1 h]
      rfl
    | _ => cases h

end Run

/-! ## How attempts end -/

/-- The results that an attempt can come to before they are told. -/
inductive Attempted (may : Trouble → Prop) (request : Request) : Except Failure Envelope → Prop
  | done {envelope} (hstatus : envelope.status = 200) : Attempted may request (.ok envelope)
  /-- The identity to erase is not there. -/
  | absent {i envelope} (hrequest : request = .erase i) (hstatus : envelope.status = 404) :
    Attempted may request (.ok envelope)
  | missing {what} (hneeds : request.needsDescriptor) : Attempted may request (.error (.missing what))
  | refused {reason} : Attempted may request (.error (.invalid reason))
  /-- A number cannot be written. -/
  | unwritable : Attempted may request (.error .unwritable)
  | failed {activity i cause} (hm : may cause) : Attempted may request (.error (.registry activity i cause))

section Attempts

variable {may : Trouble → Prop} {s t : Contents} {store : Store} {request asked : Request} {x : Work Envelope}
  {r : Except Failure Envelope}

/-- What is asked fails, and nothing is missing but what is asked needs. -/
theorem Attempted.of_failure {failure : Failure} (hasked : asked.needsDescriptor → request.needsDescriptor)
    (h : Step may s asked (.error failure) t) : Attempted may request (.error failure) := by
  rcases failure_cases h with ⟨what, rfl, hneeds⟩ | ⟨reason, rfl⟩ | rfl | ⟨activity, i, cause, rfl, hm⟩
  · exact .missing (hasked hneeds)
  · exact .refused
  · exact .unwritable
  · exact .failed hm

/-- **How an attempt ends.** -/
theorem Attempt.attempted (h : Attempt request x) (hs : Orderly s) (hends : x.Ends may s r t) :
    Attempted may request r := by
  cases h.tried hs hends with
  | done _ _ hstatus => exact .done hstatus
  | failed _ hstep => exact .of_failure id hstep
  | unsure hstep => exact .of_failure False.elim hstep
  | absent => exact .absent rfl rfl

/-- A script that strikes an attempt ends it with a failure of the table. -/
theorem Attempt.failed_of_struck (h : Attempt request x) (hs : Orderly s) (hholds : store.Holds s) {script : Script}
    (hstruck : x.run.struck Store.backend script store = true) :
    ∃ activity i cause, (x.run.run (Store.backend.guarded Script.judge) (script, store)).value =
      .error (.registry activity i cause) := by
  obtain ⟨t, -, hends⟩ := Work.ends_run Store.represents x script hholds
  obtain ⟨failure, hvalue, htable⟩ := (h.of_compositional Work.compositional_stops).value hstruck
  have hattempted := h.attempted hs hends
  rw [hvalue] at hattempted ⊢
  cases hattempted with
  | missing => exact htable.elim
  | refused => exact htable.elim
  | unwritable => exact htable.elim
  | failed => exact ⟨_, _, _, rfl⟩

/-- An attempt that no script strikes fails in no table. -/
theorem Attempt.attempted_of_not_struck (h : Attempt request x) (hs : Orderly s) (hholds : store.Holds s)
    {script : Script} (hstruck : x.run.struck Store.backend script store = false) :
    Attempted Table.Calm request (x.run.run (Store.backend.guarded Script.judge) (script, store)).value := by
  obtain ⟨t, -, hends⟩ := Work.ends_run_calm Store.represents x hholds
  rw [(Program.run_of_not_struck _ hstruck).1]
  exact h.attempted hs hends

end Attempts

/-! ## Records of demands -/

namespace Demand

/-- The record of an outcome that is no success: at error level if a failure struck, else at warning level. -/
def record (context : String) (demand : Demand) (struck : Prop) [Decidable struck] (envelope : Envelope) : Record :=
  let (level, verb, code) :=
    if struck then (Level.error, "failed", "REGISTRY_ERROR")
    else if envelope.status = 404 then (Level.warning, "failed", "SCHEMA_NOT_FOUND")
    else (Level.warning, "rejected", "VALIDATION_ERROR")
  .plain .service level (demand.operation ++ " " ++ verb ++ ": " ++ envelope.message)
    [("schema_id", .string (demand.identity (standard context)).text), ("error_code", .string code)]

/-- The outcomes that are told without a failure: successes, and that an identity to erase is not there. -/
def Unfailed (context : String) (demand : Demand) (envelope : Envelope) : Prop :=
  envelope.status = 200 ∨ (∃ i, demand.request (standard context) = .erase i) ∧ envelope.status = 404

/-- What is noted of a result that no failure struck. -/
theorem exists_noted {context : String} {demand : Demand} {r : Except Failure Envelope}
    (h : Attempted Table.Calm (demand.request (standard context)) r) {struck : Prop} [Decidable struck]
    (hstruck : ¬struck) :
    (r.tryCatch told = .error .unwritable ∧ noted demand.operation (demand.identity (standard context)) r = []) ∨
    ∃ envelope, r.tryCatch told = .ok envelope ∧
      (demand.Unfailed context envelope → noted demand.operation (demand.identity (standard context)) r = []) ∧
      (¬demand.Unfailed context envelope → noted demand.operation (demand.identity (standard context)) r =
        [demand.record context struck envelope]) := by
  cases h with
  | done hstatus => exact .inr ⟨_, rfl, fun _ => rfl, fun h => absurd (.inl hstatus) h⟩
  | absent hrequest hstatus =>
    exact .inr ⟨_, rfl, fun _ => rfl, fun h => absurd (.inr ⟨⟨_, hrequest⟩, hstatus⟩) h⟩
  | missing hneeds =>
    refine .inr ⟨_, rfl, ?_, fun _ => ?_⟩
    · rintro (h | ⟨⟨i, hrequest⟩, -⟩)
      · cases h
      · rw [hrequest] at hneeds
        exact hneeds.elim
    · rw [record, if_neg hstruck]
      rfl
  | refused =>
    refine .inr ⟨_, rfl, ?_, fun _ => ?_⟩
    · rintro (h | ⟨-, h⟩) <;> cases h
    · rw [record, if_neg hstruck]
      rfl
  | unwritable => exact .inl ⟨rfl, rfl⟩
  | failed hm => exact hm.elim

/-- What a demand leaves on the service's channel. -/
theorem on_run {s : Contents} {store : Store} (hs : Orderly s) (hholds : store.Holds s) (context : String)
    (demand : Demand) (script : Script) :
    ((demand.run (standard context) script store).value = .error .unwritable ∧
      (demand.run (standard context) script store).on .service = []) ∨
    ∃ envelope, (demand.run (standard context) script store).value = .ok envelope ∧
      (demand.Unfailed context envelope → (demand.run (standard context) script store).on .service = []) ∧
      (¬demand.Unfailed context envelope → (demand.run (standard context) script store).on .service =
        [demand.record context (demand.Struck (standard context) script store) envelope]) := by
  obtain ⟨x, hwork, hattempt⟩ := demand.exists_attempt context
  have hvalue : (demand.run (standard context) script store).value =
      (x.run.run (Store.backend.guarded Script.judge) (script, store)).value.tryCatch told := by
    rw [Demand.run, hwork, run_enveloped]
  have hon : (demand.run (standard context) script store).on .service =
      noted demand.operation (demand.identity (standard context))
        (x.run.run (Store.backend.guarded Script.judge) (script, store)).value := by
    rw [Demand.run, hwork, on_enveloped hattempt.silent]
  have hiff : demand.Struck (standard context) script store ↔ x.run.struck Store.backend script store = true := by
    rw [Demand.Struck, hwork, struck_enveloped]
  rw [hvalue, hon]
  by_cases hstruck : demand.Struck (standard context) script store
  · obtain ⟨activity, i, cause, hfailed⟩ := hattempt.failed_of_struck hs hholds (hiff.1 hstruck)
    rw [hfailed]
    refine .inr ⟨_, rfl, ?_, fun _ => ?_⟩
    · rintro (h | ⟨-, h⟩) <;> cases h
    · rw [Demand.record, if_pos hstruck]
      rfl
  · have hcalm := Bool.eq_false_iff.2 (mt hiff.2 hstruck)
    exact exists_noted (hattempt.attempted_of_not_struck hs hholds hcalm) hstruck

end Demand

/-- **Failures are noted.** After any uses of a new table, with any failures, a demand on a service ends with an
envelope. It leaves nothing on the service's channel where this is a success, nor where an identity to erase is not
there; and it leaves one record for every other outcome, at error level where a failure strikes and at warning level
where something is missing or refused. Only where a number of more than 4300 digits is to be written, and no failure
strikes, there is neither an envelope nor a record. -/
theorem failures_noted {store : Store} (hnew : store.IsNew) (uses : List Use) (context : String) (demand : Demand)
    (script : Script) :
    ((demand.request (standard context)).Unwritable (afterUses uses store) ∧
        ¬demand.Struck (standard context) script (afterUses uses store) →
      (demand.run (standard context) script (afterUses uses store)).value = .error .unwritable ∧
        (demand.run (standard context) script (afterUses uses store)).on .service = []) ∧
    (¬((demand.request (standard context)).Unwritable (afterUses uses store) ∧
        ¬demand.Struck (standard context) script (afterUses uses store)) →
      ∃ envelope, (demand.run (standard context) script (afterUses uses store)).value = .ok envelope ∧
        (demand.Unfailed context envelope →
          (demand.run (standard context) script (afterUses uses store)).on .service = []) ∧
        (¬demand.Unfailed context envelope →
          (demand.run (standard context) script (afterUses uses store)).on .service =
            [demand.record context (demand.Struck (standard context) script (afterUses uses store)) envelope])) := by
  obtain ⟨s, hs, hholds⟩ := exists_orderly uses Orderly.empty hnew.holds
  have hunwritable := demand.value_eq_unwritable_iff context script hs hholds
  refine ⟨fun hlong => ?_, fun hshort => ?_⟩
  · rcases demand.on_run hs hholds context script with h | ⟨envelope, hvalue, -⟩
    · exact h
    · cases hvalue.symm.trans (hunwritable.2 hlong)
  · rcases demand.on_run hs hholds context script with ⟨hvalue, -⟩ | h
    · exact absurd (hunwritable.1 hvalue) hshort
    · exact h

/-- What is left of an identity cannot be listed: this is a warning, and an error where the table fails. A number that
is too long has neither an envelope nor a record. -/
theorem failures_noted_leftovers :
    (Sample.listing.run (standard "main") [] (afterUses Sample.leftovers (.memory .empty))).on .service =
      [.plain .service .warning "list versions failed: Schema 'main:orders' does not exist."
        [("schema_id", .string "main:orders"), ("error_code", .string "SCHEMA_NOT_FOUND")]] ∧
    (Sample.listing.run (standard "main") [some ⟨"disk full"⟩] (afterUses Sample.leftovers (.memory .empty))).on
        .service =
      [.plain .service .error "list versions failed: Failed to list versions of schema 'main:orders': disk full"
        [("schema_id", .string "main:orders"), ("error_code", .string "REGISTRY_ERROR")]] ∧
    (Sample.fetch.run (standard "main") [] (afterUses Sample.described (.memory .empty))).value =
        .error .unwritable ∧
      (Sample.fetch.run (standard "main") [] (afterUses Sample.described (.memory .empty))).on .service = [] := by
  -- a listing is no erasure, so only the status and the message of its envelope are to be found out
  have hrecorded : ∀ (script : Script) (status : Int) (message : String),
      (Sample.listing.run (standard "main") script (afterUses Sample.leftovers (.memory .empty))).value.toOption.map
        (fun envelope => (envelope.status, envelope.message)) = some (status, message) → status ≠ 200 →
      ∃ envelope, envelope.status = status ∧ envelope.message = message ∧
        (Sample.listing.run (standard "main") script (afterUses Sample.leftovers (.memory .empty))).on .service =
          [Sample.listing.record "main"
            (Sample.listing.Struck (standard "main") script (afterUses Sample.leftovers (.memory .empty)))
            envelope] := by
    intro script status message htold hne
    have hshort : ¬(Sample.listing.request (standard "main")).Unwritable
        (afterUses Sample.leftovers (.memory .empty)) := Request.not_unwritable rfl _
    obtain ⟨envelope, hvalue, -, hnoted⟩ :=
      (failures_noted .memory Sample.leftovers "main" Sample.listing script).2 fun h => hshort h.1
    rw [hvalue] at htold
    obtain ⟨hstatus, hmessage⟩ := Prod.mk.inj (Option.some.inj htold)
    refine ⟨envelope, hstatus, hmessage, hnoted ?_⟩
    rintro (h | ⟨⟨i, h⟩, -⟩)
    · exact hne (hstatus.symm.trans h)
    · cases h
  refine ⟨?_, ?_, (failures_noted .memory Sample.described "main" Sample.fetch []).1
    ⟨Sample.unwritable_fetch, Sample.not_struck_fetch⟩⟩
  · obtain ⟨envelope, hstatus, hmessage, hrecord⟩ :=
      hrecorded [] 404 "Schema 'main:orders' does not exist." (by decide +kernel) (by decide)
    rw [hrecord, Demand.record, if_neg (by decide +kernel), if_pos hstatus, hmessage]
    rfl
  · obtain ⟨envelope, -, hmessage, hrecord⟩ :=
      hrecorded [some ⟨"disk full"⟩] 500 "Failed to list versions of schema 'main:orders': disk full"
        (by decide +kernel) (by decide)
    rw [hrecord, Demand.record, if_pos (by decide +kernel), hmessage]
    rfl

/-- An erasure that finds nothing is no success and has no record. -/
theorem not_failures_noted :
    ¬∀ (uses : List Use) (context : String) (demand : Demand) (script : Script), ∃ envelope,
      (demand.run (standard context) script (afterUses uses (.memory .empty))).value = .ok envelope ∧
        (envelope.status ≠ 200 → ∃ record,
          (demand.run (standard context) script (afterUses uses (.memory .empty))).on .service = [record]) := by
  intro h
  obtain ⟨envelope, hvalue, hnoted⟩ := h [] "default" (.erase none (some "ghost")) []
  have hrun : ((Demand.erase none (some "ghost")).run (standard "default") [] (afterUses [] (.memory .empty))).value =
      .ok (.notFound "Id default:ghost not found.") := by rfl
  obtain rfl := Except.ok.inj (hrun.symm.trans hvalue)
  obtain ⟨record, hrecord⟩ := hnoted (show (404 : Int) ≠ 200 by decide)
  cases hrecord

end Schemata.Service

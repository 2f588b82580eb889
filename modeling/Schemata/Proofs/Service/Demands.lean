import Schemata.Proofs.Catalog.Outcomes
import Schemata.Service.Operations

/-!
# Demands on the service

- A `Demand` is one of the six operations of the service with its inputs. It makes one request of the registry
  (`Demand.request`), and an erasure asks first whether the identity is there (`Demand.exists_attempt`).
- `Served may s request r t` lists all that a demand can come to from orderly contents, and every end of its work is one
  of these (`Demand.served_of_ends`): an envelope, whatever fails in it, unless a number cannot be written.
-/

namespace Schemata

open Catalog
open Table (Contents Program Trouble)

namespace Service

/-- The service over the standard registry, with a default context. -/
def standard (context : String) : Service := ⟨.standard, context⟩

/-- One operation of the service with its inputs. -/
inductive Demand where
  | describe (context label name description format : Option String)
  | append (context label : Option String) (content : Option Bytes)
  | erase (context label : Option String)
  | eraseVersion (context label : Option String) (number : Int)
  | entry (context label : Option String) (number : Option Int)
  | numbers (context label : Option String)

namespace Demand

/-- The work of a demand on a service. -/
def work (service : Service) : Demand → Work Envelope
  | describe context label name description format => service.describe context label name description format
  | append context label content => service.append context label content
  | erase context label => service.erase context label
  | eraseVersion context label number => service.eraseVersion context label number
  | entry context label number => service.entry context label number
  | numbers context label => service.numbers context label

/-- The request that a demand makes of the registry. -/
def request (service : Service) : Demand → Request
  | describe context label name description format =>
    .describe ⟨service.identity context label, name.getD "", description.getD "", FormatRequest.ofLabel format⟩
  | append context label content => .append (service.identity context label) content
  | erase context label => .erase (service.identity context label)
  | eraseVersion context label number => .eraseVersion (service.identity context label) number
  | entry context label number => .entry (service.identity context label) number
  | numbers context label => .numbers (service.identity context label)

/-- The identity that a demand is about. -/
def identity (service : Service) (demand : Demand) : Identity := (demand.request service).identity

/-- What the service calls a demand in its records. -/
def operation : Demand → String
  | describe _ _ _ _ _ => "create"
  | append _ _ _ => "add"
  | erase _ _ => "delete"
  | eraseVersion _ _ _ => "delete version"
  | entry _ _ _ => "get"
  | numbers _ _ => "list versions"

end Demand

/-! ## Works that are told -/

section Told

variable {may : Trouble → Prop} {s t : Contents} {operation : String} {i : Identity} {x : Work Envelope}
  {r : Except Failure Envelope}

/-- A failure as the service tells it. -/
def told : Failure → Except Failure Envelope
  | .missing what => .ok (.notFound what.message)
  | .invalid reason => .ok (.error reason.message)
  | .registry activity i cause => .ok (.error (Failure.registry activity i cause).message)
  | failure => .error failure

theorem ends_enveloped :
    (enveloped operation i x).Ends may s r t ↔ ∃ r', x.Ends may s r' t ∧ r = r'.tryCatch told := by
  refine Work.ends_tryCatch fun failure s r t => ?_
  have hnoted : ∀ {level verb report envelope}, (do
      noteFailure level operation verb i report
      return envelope : Work Envelope).Ends may s r t ↔ r = .ok envelope ∧ t = s := by
    intros
    rw [Work.Ends]
    exact Iff.rfl
  cases failure with
  | missing what => exact hnoted
  | invalid reason => exact hnoted
  | registry activity j cause => exact hnoted
  | _ => exact Work.ends_throw

/-- Where a command fails, the service tells it as an error. -/
theorem stops_enveloped (h : x.Stops) : (enveloped operation i x).run.Stops fun r =>
    (∃ message, r = .ok (.error message)) ∨ ∃ trouble, r = .error (.table trouble) := by
  refine Program.Stops.bind h (fun r => ?_) fun r => ?_
  · rintro ⟨failure, rfl, htable⟩
    cases failure with
    | table trouble => exact Or.inr ⟨_, rfl⟩
    | registry activity j cause => exact Or.inl ⟨_, rfl⟩
    | _ => exact htable.elim
  · cases r with
    | ok envelope => trivial
    | error failure => cases failure <;> trivial

end Told

/-! ## What a demand tries -/

/-- What is tried for a request before it is told: the request, whose replies are successes; or, for an erasure, whether
the identity is there, and then the request. -/
inductive Attempt : Request → Work Envelope → Prop
  | plain {request : Request} {α : Type} {x : Work α} {reply : α → Reply} {success : α → Envelope}
    (hrequest : ∀ i, request ≠ .erase i) (hwork : request.work = x >>= fun a => pure (reply a))
    (hsuccess : ∀ a, (success a).status = Envelope.okStatus)
    (hparts : ∀ C, Work.Compositional request.identity.Owns C → C α x) :
    Attempt request (x >>= fun a => pure (success a))
  | erase {i : Identity} {success : Envelope} {message : String} (hsuccess : success.status = Envelope.okStatus) :
    Attempt (.erase i) (contains i >>= fun there =>
      if there then Catalog.erase i >>= fun _ => pure success else pure (.notFound message))

/-- Every demand tries its request and tells the end. -/
theorem Demand.exists_attempt (context : String) (demand : Demand) :
    ∃ x, demand.work (standard context) = enveloped demand.operation (demand.identity (standard context)) x ∧
      Attempt (demand.request (standard context)) x := by
  cases demand with
  | describe => exact ⟨_, rfl, .plain nofun rfl (fun _ => rfl) fun C h => Work.Compositional.describe h⟩
  | append => exact ⟨_, rfl, .plain nofun rfl (fun _ => rfl) fun C h => h.append⟩
  | erase => exact ⟨_, rfl, .erase rfl⟩
  | eraseVersion => exact ⟨_, rfl, .plain nofun rfl (fun _ => rfl) fun C h => h.eraseVersion⟩
  | entry => exact ⟨_, rfl, .plain nofun rfl (fun _ => rfl) fun C h => h.entry⟩
  | numbers => exact ⟨_, rfl, .plain nofun rfl (fun _ => rfl) fun C h => h.numbers⟩

/-- An attempt is put together from commands to keys of its identity. -/
theorem Attempt.of_compositional {request : Request} {x : Work Envelope} (h : Attempt request x)
    {C : (α : Type) → Work α → Prop} (hC : Work.Compositional request.identity.Owns C) : C _ x := by
  cases h with
  | plain _ _ _ hparts => exact hC.of_bind (hparts C hC) fun _ => hC.of_pure _
  | erase =>
    refine hC.of_bind hC.contains fun there => ?_
    cases there with
    | true => exact hC.of_bind hC.erase fun _ => hC.of_pure _
    | false => exact hC.of_pure _

/-! ## What a demand comes to -/

variable {may : Trouble → Prop} {s t : Contents} {request : Request} {envelope : Envelope}

/-- What the service makes of the result of a request: an envelope that tells it, or nothing where a number cannot be
written. -/
inductive Tells : Except Failure Reply → Except Failure Envelope → Prop
  | done {reply envelope} (hstatus : envelope.status = Envelope.okStatus) : Tells (.ok reply) (.ok envelope)
  | missing {what} : Tells (.error (.missing what)) (.ok (.notFound what.message))
  | refused {reason} : Tells (.error (.invalid reason)) (.ok (.error reason.message))
  | failed {activity i cause} :
    Tells (.error (.registry activity i cause)) (.ok (.error (Failure.registry activity i cause).message))
  | unwritable : Tells (.error .unwritable) (.error .unwritable)

/-- What the service can come to for a request. -/
inductive Served (may : Trouble → Prop) (s : Contents) : Request → Except Failure Envelope → Contents → Prop
  /-- The request's result is told; if it erases an identity, this was there. -/
  | told {request result r t} (hd : ∀ i, request = .erase i → i.DescribedIn s)
    (h : Step may s request result t) (htells : Tells result r) : Served may s request r t
  /-- It could not be found out whether the identity to erase is there. -/
  | unsure {i failure r t} (h : Step may s (.contains i) (.error failure) t)
    (htells : Tells (.error failure) r) : Served may s (.erase i) r t
  /-- The identity to erase is not there. -/
  | absent {i message} (hi : i.Fits) (hd : ¬i.DescribedIn s) : Served may s (.erase i) (.ok (.notFound message)) s

/-- A failure of a request is something missing that it needs, a refusal, a number that cannot be written, or a failure
of the table. -/
theorem failure_cases {failure : Failure} (h : Step may s request (.error failure) t) :
    (∃ what, failure = .missing what ∧ request.needsDescriptor) ∨ (∃ reason, failure = .invalid reason) ∨
      failure = .unwritable ∨ ∃ activity i cause, failure = .registry activity i cause ∧ may cause := by
  cases h with
  | refused | unfit | full => exact .inr (.inl ⟨_, rfl⟩)
  | absent _ hneeds => exact .inl ⟨_, rfl, hneeds⟩
  | unselected _ _ _ hfailure =>
    rcases Failure.eq_or_eq_of_worded hfailure with rfl | rfl
    · exact .inl ⟨_, rfl, trivial⟩
    · exact .inr (.inr (.inl rfl))
  | unversioned _ _ _ _ hfailure =>
    rcases Failure.eq_or_eq_of_worded hfailure with rfl | rfl
    · exact .inl ⟨_, rfl, trivial⟩
    · exact .inr (.inr (.inl rfl))
  | beyond _ _ _ hfailure =>
    rcases Failure.eq_or_eq_of_worded hfailure with rfl | rfl
    · exact .inr (.inl ⟨_, rfl⟩)
    · exact .inr (.inr (.inl rfl))
  | failed hm | halfCleared hm | halfAppended hm | halfErased hm => exact .inr (.inr (.inr ⟨_, _, _, rfl, hm⟩))

/-- What the service makes of a failure of a request. -/
theorem tells_told {failure : Failure} (h : Step may s request (.error failure) t) :
    Tells (.error failure) (Except.tryCatch (.error failure) told) := by
  rcases failure_cases h with ⟨what, rfl, -⟩ | ⟨reason, rfl⟩ | rfl | ⟨activity, i, cause, rfl, -⟩
  · exact .missing
  · exact .refused
  · exact .unwritable
  · exact .failed

/-- What an attempt can come to for a request, before it is told. -/
inductive Tried (may : Trouble → Prop) (s : Contents) : Request → Except Failure Envelope → Contents → Prop
  /-- The request succeeds; if it erases an identity, this was there. -/
  | done {request reply envelope t} (hd : ∀ i, request = .erase i → i.DescribedIn s)
    (h : Step may s request (.ok reply) t) (hstatus : envelope.status = Envelope.okStatus) :
    Tried may s request (.ok envelope) t
  | failed {request failure t} (hd : ∀ i, request = .erase i → i.DescribedIn s)
    (h : Step may s request (.error failure) t) : Tried may s request (.error failure) t
  /-- It could not be found out whether the identity to erase is there. -/
  | unsure {i failure t} (h : Step may s (.contains i) (.error failure) t) : Tried may s (.erase i) (.error failure) t
  /-- The identity to erase is not there. -/
  | absent {i message} (hi : i.Fits) (hd : ¬i.DescribedIn s) : Tried may s (.erase i) (.ok (.notFound message)) s

/-- A request whose replies are successes is tried. -/
theorem Tried.of_step {α : Type} {reply : α → Reply} {success : α → Envelope} {r : Except Failure α}
    (hsuccess : ∀ a, (success a).status = Envelope.okStatus) (hd : ∀ i, request = .erase i → i.DescribedIn s)
    (h : Step may s request (r.map reply) t) : Tried may s request (r.map success) t := by
  cases r with
  | ok a => exact .done hd h (hsuccess a)
  | error failure => exact .failed hd h

/-- **What an attempt comes to.** -/
theorem Attempt.tried {x : Work Envelope} {r : Except Failure Envelope} (h : Attempt request x) (hs : Orderly s)
    (hends : x.Ends may s r t) : Tried may s request r t := by
  cases h with
  | @plain _ _ _ reply success hrequest hwork hsuccess hparts =>
    obtain ⟨r, hr, rfl⟩ := (Work.ends_bind_pure (by intros; exact Work.ends_pure)).1 hends
    have hstep : Step may s request (r.map reply) t := by
      apply Request.step_of_ends hs
      rw [hwork]
      exact (Work.ends_bind_pure (by intros; exact Work.ends_pure)).2 ⟨r, hr, rfl⟩
    exact .of_step hsuccess (fun i hi => absurd hi (hrequest i)) hstep
  | @erase i success message hsuccess =>
    rcases Work.ends_bind.1 hends with ⟨failure, hcontains, rfl⟩ | ⟨there, u, hcontains, hrest⟩
    · exact .unsure (step_of_ends_contains hcontains)
    obtain ⟨hi, rfl, rfl⟩ := (step_of_ends_contains hcontains).of_answer
    by_cases hd : i.DescribedIn u
    · rw [Option.isSome_iff_ne_none.2 hd] at hrest
      obtain ⟨r, hr, rfl⟩ := (Work.ends_bind_pure (by intros; exact Work.ends_pure)).1 hrest
      refine .of_step (fun _ => hsuccess) (fun j hj => ?_) (step_of_ends_erase hs hr)
      cases hj
      exact hd
    · rw [Option.isSome_eq_false_iff.2 (by simpa [Identity.DescribedIn] using hd)] at hrest
      obtain ⟨rfl, rfl⟩ := Work.ends_pure.1 hrest
      exact .absent hi hd

/-- What is tried is served when its failures are told. -/
theorem Tried.served {r : Except Failure Envelope} (h : Tried may s request r t) :
    Served may s request (r.tryCatch told) t := by
  cases h with
  | done hd h hstatus => exact .told hd h (.done hstatus)
  | failed hd h => exact .told hd h (tells_told h)
  | unsure h => exact .unsure h (tells_told h)
  | absent hi hd => exact .absent hi hd

/-- Every end of a demand's work is one that it may come to. -/
theorem Demand.served_of_ends {context : String} {demand : Demand} {r : Except Failure Envelope} (hs : Orderly s)
    (hends : (demand.work (standard context)).Ends may s r t) :
    Served may s (demand.request (standard context)) r t := by
  obtain ⟨x, hwork, hattempt⟩ := demand.exists_attempt context
  rw [hwork] at hends
  obtain ⟨r, hx, rfl⟩ := ends_enveloped.1 hends
  exact (hattempt.tried hs hx).served

end Service

end Schemata

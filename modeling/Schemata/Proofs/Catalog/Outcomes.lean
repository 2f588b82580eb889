import Schemata.Proofs.Catalog.Parts
import Schemata.Proofs.Catalog.Run
import Schemata.Proofs.Table.Struck

/-!
# What decides how a request ends

- What a request is about may be missing from a table (`Request.Misses`), its inputs may be refused
  (`Request.Refused`), and the number that it names may be too long to be told (`Request.Unwritable`). Every step ends
  in one of five ways that go with these (`Decided`, `Step.decided`): with a reply, with what is missing, with a
  refusal, with neither because the number cannot be written, or with a failure of the table.
- A request stops at the first of its commands that fails, and then ends with a failure of the table
  (`Request.stops`). So a call that a failure strikes ends with one (`Call.error_of_struck`), and any other call ends as
  it does without failures (`Call.event_of_not_struck`).
- A request about an identity that does not fit into keys is refused before the table is asked
  (`Call.refused_of_not_fits`).
- In orderly contents every row that the registry reads can be read (`Orderly.isReadable`).
-/

namespace Schemata.Catalog

open Table (Command Contents Program Script Store Trouble)

variable {may : Trouble → Prop} {i : Identity} {s t : Contents} {store : Store} {request : Request}
  {result : Except Failure Reply} {n : Int}

/-! ## What a table decides -/

namespace Request

/-- The version that the request is about is not there, or no version where it is about the current one. -/
def MissesVersion (request : Request) (store : Store) : Prop :=
  match request with
  | .entry i none => ∀ n, i.rowOf store (.version n) = none
  | .entry i (some n) | .eraseVersion i n => i.rowOf store (.version n) = none
  | .describe _ | .append _ _ | .numbers _ | .contains _ | .erase _ => False

/-- The identity or the version that the request needs is not there. -/
def Misses (request : Request) (store : Store) : Prop :=
  request.needsDescriptor ∧ (¬request.identity.IsDescribed store ∨ request.MissesVersion store)

/-- The request is for a version, or needs the next one, that no row can have. -/
def OutOfRange (request : Request) (store : Store) : Prop :=
  match request with
  | .append i _ => i.IsDescribed store ∧ i.latestOf store = maxVersion
  | .eraseVersion i n => i.IsDescribed store ∧ maxVersion < n
  | .describe _ | .entry _ _ | .numbers _ | .contains _ | .erase _ => False

/-- A text of the description is empty, its format is not known, or there is no content to append. -/
def IsFaulty : Request → Prop
  | .describe draft =>
    draft.identity.label = "" ∨ draft.name = "" ∨ draft.description = "" ∨ ∃ tag, draft.format = .unknown tag
  | .append _ content => content.getD [] = []
  | .entry _ _ | .numbers _ | .contains _ | .eraseVersion _ _ | .erase _ => False

/-- The inputs of the request are refused. -/
def Refused (request : Request) (store : Store) : Prop :=
  request.IsFaulty ∨ ¬request.identity.Fits ∨ request.OutOfRange store

/-- The request is about a version of an identity that is there, and the number of the version has more than 4300
digits. -/
def Unwritable (request : Request) (store : Store) : Prop :=
  request.identity.IsDescribed store ∧ ∃ n, request.version? = some n ∧ 10 ^ 4300 ≤ n.natAbs

/-- A request that names no version has no number to be written. -/
theorem not_unwritable (hversion : request.version? = none) (store : Store) : ¬request.Unwritable store := by
  rintro ⟨-, n, hn, -⟩
  cases hversion.symm.trans hn

/-- The inputs that pass their check are those that are not faulty. -/
theorem check_eq_ok_iff : request.check = .ok () ↔ ¬request.IsFaulty := by
  cases request with
  | describe draft =>
    rw [check, Draft.check, IsFaulty]
    by_cases hlabel : draft.identity.label = ""
    · simp [hlabel, Except.map]
    by_cases hname : draft.name = ""
    · simp [hlabel, hname, Except.map]
    by_cases hdescription : draft.description = ""
    · simp [hlabel, hname, hdescription, Except.map]
    cases hformat : draft.format <;> simp [hlabel, hname, hdescription, Except.map]
  | append i content => rcases content with _ | _ | ⟨first, rest⟩ <;> simp [check, checkContent, IsFaulty, Except.map]
  | _ => simp [check, IsFaulty]

theorem isFaulty_of_check {reason : Invalid} (hcheck : request.check = .error reason) : request.IsFaulty := by
  by_contra hfaulty
  cases hcheck.symm.trans (check_eq_ok_iff.2 hfaulty)

theorem not_refused (hcheck : request.check = .ok ()) (hi : request.identity.Fits)
    (hrange : ¬request.OutOfRange store) : ¬request.Refused store := by
  rintro (hfaulty | hfits | hrange')
  · exact check_eq_ok_iff.1 hcheck hfaulty
  · exact hfits hi
  · exact hrange hrange'

end Request

/-! ## Numbers that no row can have -/

/-- There is no row of a version whose number eight octets cannot hold. -/
theorem Orderly.row?_of_unnumbered (hs : Orderly s) (hn : ¬(0 ≤ n ∧ n ≤ maxVersion)) :
    i.row? s (.version n) = none := by
  by_cases hmin : 0 ≤ n
  · exact hs.row?_version_of_gt (Int.not_le.1 fun hmax => hn ⟨hmin, hmax⟩)
  · exact hs.row?_version_of_lt (by omega)

/-- A request about such a version finds none. -/
theorem Request.misses_of_unnumbered (hs : Orderly s) (hholds : store.Holds s) (hversion : request.version? = some n)
    (hn : ¬(0 ≤ n ∧ n ≤ maxVersion)) : request.Misses store := by
  have hnone : ∀ i : Identity, i.rowOf store (.version n) = none := fun i => by
    rw [Identity.rowOf_eq hholds, hs.row?_of_unnumbered hn]
  cases request with
  | entry i number =>
    obtain rfl : number = some n := hversion
    exact ⟨trivial, .inr (hnone i)⟩
  | eraseVersion i number =>
    obtain rfl : number = n := Option.some.inj hversion
    exact ⟨trivial, .inr (hnone i)⟩
  | _ => cases hversion

theorem not_isWritable_iff : Text.isWritable n = false ↔ 10 ^ 4300 ≤ n.natAbs := by
  rw [Text.not_isWritable_iff, Text.maxDigits]

/-- A number that is too long to be written is none of a row. -/
theorem unnumbered_of_not_isWritable (h : Text.isWritable n = false) : ¬(0 ≤ n ∧ n ≤ maxVersion) := by
  rintro ⟨hmin, hmax⟩
  have hle : n.natAbs ≤ 2 ^ 64 := by
    have := maxVersion_succ
    omega
  rw [Text.isWritable_of_le hle] at h
  cases h

/-- A number that is too long to be written is that of no version. -/
theorem Request.Unwritable.misses (h : request.Unwritable store) (hs : Orderly s) (hholds : store.Holds s) :
    request.Misses store := by
  obtain ⟨-, n, hversion, hn⟩ := h
  exact Request.misses_of_unnumbered hs hholds hversion (unnumbered_of_not_isWritable (not_isWritable_iff.2 hn))

/-- A request whose inputs are refused names no version. -/
theorem Request.not_unwritable_of_check {reason : Invalid} (hcheck : request.check = .error reason) :
    ¬request.Unwritable store := by
  cases request with
  | describe draft => exact not_unwritable rfl store
  | append i content => exact not_unwritable rfl store
  | _ => cases hcheck

/-- A failure that names the number of the request is told in words unless the number is too long. -/
theorem Request.worded (hd : request.identity.IsDescribed store) {failure : Failure}
    (hnumber : failure.number? = request.version?) :
    failure.worded = failure ∧ ¬request.Unwritable store ∨ failure.worded = .unwritable ∧ request.Unwritable store := by
  cases hversion : request.version? with
  | none =>
    rw [hversion] at hnumber
    exact .inl ⟨Failure.worded_of_none hnumber, not_unwritable hversion store⟩
  | some n =>
    rw [hversion] at hnumber
    rw [Failure.worded_of_number hnumber]
    cases hwritable : Text.isWritable n with
    | true =>
      refine .inl ⟨rfl, ?_⟩
      rintro ⟨-, m, hm, hlong⟩
      cases hversion.symm.trans hm
      rw [not_isWritable_iff.2 hlong] at hwritable
      cases hwritable
    | false => exact .inr ⟨rfl, hd, n, hversion, not_isWritable_iff.1 hwritable⟩

/-! ## What decides a step -/

/-- The ways in which a request can end, each with what the table then decides. -/
inductive Decided (may : Trouble → Prop) (request : Request) (store : Store) : Except Failure Reply → Prop
  /-- What it is about is there, and its inputs are accepted. -/
  | done {reply} (hfound : ¬request.Misses store) (haccepted : ¬request.Refused store) :
    Decided may request store (.ok reply)
  | missing {what} (hmisses : request.Misses store) (haccepted : ¬request.Refused store)
    (hwritable : ¬request.Unwritable store) : Decided may request store (.error (.missing what))
  | refused {reason} (hrefused : request.Refused store) (hwritable : ¬request.Unwritable store) :
    Decided may request store (.error (.invalid reason))
  /-- What is missing or refused cannot be put into words. -/
  | unwritable (hlong : request.Unwritable store) : Decided may request store (.error .unwritable)
  | failed {activity i cause} (hm : may cause) : Decided may request store (.error (.registry activity i cause))

namespace Decided

variable {failure : Failure}

theorem mono {may' : Trouble → Prop} (h : Decided may request store result)
    (hm : ∀ trouble, may trouble → may' trouble) : Decided may' request store result := by
  cases h with
  | done hfound haccepted => exact .done hfound haccepted
  | missing hmisses haccepted hwritable => exact .missing hmisses haccepted hwritable
  | refused hrefused hwritable => exact .refused hrefused hwritable
  | unwritable hlong => exact .unwritable hlong
  | failed hcause => exact .failed (hm _ hcause)

theorem of_missing {what : Missing} (hd : request.identity.IsDescribed store)
    (hfailure : failure = (Failure.missing what).worded) (hnumber : what.version? = request.version?)
    (hmisses : request.Misses store) (haccepted : ¬request.Refused store) :
    Decided may request store (.error failure) := by
  rw [hfailure]
  rcases Request.worded hd (show (Failure.missing what).number? = _ from hnumber) with ⟨h, hwritable⟩ | ⟨h, hlong⟩
  · rw [h]
    exact .missing hmisses haccepted hwritable
  · rw [h]
    exact .unwritable hlong

theorem of_refused {reason : Invalid} (hd : request.identity.IsDescribed store)
    (hfailure : failure = (Failure.invalid reason).worded) (hnumber : reason.number? = request.version?)
    (hrefused : request.Refused store) : Decided may request store (.error failure) := by
  rw [hfailure]
  rcases Request.worded hd (show (Failure.invalid reason).number? = _ from hnumber) with ⟨h, hwritable⟩ | ⟨h, hlong⟩
  · rw [h]
    exact .refused hrefused hwritable
  · rw [h]
    exact .unwritable hlong

end Decided

/-- Where no version can be selected, none is there that was asked for. -/
theorem Orderly.missesVersion_of_selectVersion (hs : Orderly s) (hi : i.Fits) (hholds : store.Holds s)
    {number : Option Int} {what : Missing} (h : selectVersion i number (i.versionsIn s) = .error what) :
    (Request.entry i number).MissesVersion store := by
  cases number with
  | some n =>
    rw [hs.selectVersion_some hi] at h
    rw [Request.MissesVersion, Identity.rowOf_eq hholds]
    cases hrow : i.row? s (.version n) with
    | none => rfl
    | some content =>
      rw [hrow] at h
      cases h
  | none =>
    have hnone : i.versionsIn s = [] := by
      rw [selectVersion] at h
      cases hlast : (i.versionsIn s).getLast? with
      | none => exact List.getLast?_eq_none_iff.1 hlast
      | some last =>
        rw [hlast] at h
        cases h
    intro n
    rw [Identity.rowOf_eq hholds]
    cases hrow : i.row? s (.version n) with
    | none => rfl
    | some content =>
      obtain ⟨m, rfl, -, -, -⟩ := hs.number_of_row? hrow
      have hmem := (hs.mem_versionsIn hi).2 hrow
      rw [hnone] at hmem
      cases hmem

/-- Where a version can be selected, what was asked for is there. -/
theorem Orderly.not_missesVersion_of_selectVersion (hs : Orderly s) (hi : i.Fits) (hholds : store.Holds s)
    {number : Option Int} {version : Version} (h : selectVersion i number (i.versionsIn s) = .ok version) :
    ¬(Request.entry i number).MissesVersion store := by
  have hrow := (hs.mem_versionsIn hi).1 (mem_of_selectVersion h)
  cases number with
  | some n =>
    rw [hs.selectVersion_some hi] at h
    intro hmisses
    rw [Request.MissesVersion, Identity.rowOf_eq hholds] at hmisses
    rw [hmisses] at h
    cases h
  | none =>
    intro hmisses
    have hnone := hmisses version.number
    rw [Identity.rowOf_eq hholds, hrow] at hnone
    cases hnone

-- Otherwise numbers would be compared with 2 ^ 64 step by step.
attribute [local irreducible] maxVersion

/-- **What decides how a step ends.** -/
theorem Step.decided (h : Step may s request result t) (hs : Orderly s) (hholds : store.Holds s) :
    Decided may request store result := by
  have hdescribed : ∀ i : Identity, i.IsDescribed store ↔ i.DescribedIn s := fun i => Identity.isDescribed_iff hholds
  cases h with
  | refused hcheck => exact .refused (.inl (Request.isFaulty_of_check hcheck)) (Request.not_unwritable_of_check hcheck)
  | unfit hcheck hstem =>
    have hi : ¬request.identity.Fits := fun hi => by
      rw [Identity.stem_of_fits hi] at hstem
      cases hstem
    exact .refused (.inr (.inl hi)) fun hlong => hi (fits_of_describedIn ((hdescribed _).1 hlong.1))
  | failed hm => exact .failed hm
  | absent hcheck hneeds hi hd =>
    have hnone := mt (hdescribed _).1 hd
    refine .missing ⟨hneeds, .inl hnone⟩ (Request.not_refused hcheck hi ?_) fun hlong => hnone hlong.1
    cases request with
    | append j content => exact fun hrange => hnone hrange.1
    | eraseVersion j n => exact fun hrange => hnone hrange.1
    | _ => exact id
  | halfCleared hm => exact .failed hm
  | described hcheck hi =>
    exact .done (fun h => h.1) (Request.not_refused (by rw [Request.check, hcheck]; rfl) hi id)
  | redescribed hcheck hi =>
    exact .done (fun h => h.1) (Request.not_refused (by rw [Request.check, hcheck]; rfl) hi id)
  | full hcheck hi hd hlatest =>
    refine .refused (.inr (.inr ⟨(hdescribed _).2 hd, ?_⟩)) (Request.not_unwritable rfl store)
    rw [Identity.latestOf_eq hs hi hholds, hlatest]
  | halfAppended hm => exact .failed hm
  | appended hi hd hlatest =>
    refine .done (fun h => h.2.elim (fun hnone => hnone ((hdescribed _).2 hd)) id) ?_
    refine Request.not_refused rfl hi fun hrange => ?_
    rw [Request.OutOfRange, Identity.latestOf_eq hs hi hholds] at hrange
    exact absurd hrange.2 (Nat.ne_of_lt hlatest)
  | unselected hi hd hselect hfailure =>
    have hmisses := hs.missesVersion_of_selectVersion hi hholds hselect
    exact .of_missing ((hdescribed _).2 hd) hfailure (version?_of_selectVersion hselect) ⟨trivial, .inr hmisses⟩
      (Request.not_refused rfl hi id)
  | told hi hd hselect =>
    have hmisses := hs.not_missesVersion_of_selectVersion hi hholds hselect
    have hd' := (hdescribed _).2 (hs.describedIn_of hd)
    exact .done (fun h => h.2.elim (fun hnone => hnone hd') hmisses) (Request.not_refused rfl hi id)
  | listed hi hd =>
    exact .done (fun h => h.2.elim (fun hnone => hnone ((hdescribed _).2 hd)) id) (Request.not_refused rfl hi id)
  | answered hi => exact .done (fun h => h.1) (Request.not_refused rfl hi id)
  | unversioned hi hd hmax hrow hfailure =>
    refine .of_missing ((hdescribed _).2 hd) hfailure rfl ⟨trivial, .inr ?_⟩
      (Request.not_refused rfl hi fun hrange => ?_)
    · rw [Request.MissesVersion, Identity.rowOf_eq hholds, hrow]
    · exact absurd hmax (Int.not_le.2 hrange.2)
  | beyond hi hd hmax hfailure =>
    exact .of_refused ((hdescribed _).2 hd) hfailure rfl (.inr (.inr ⟨(hdescribed _).2 hd, hmax⟩))
  | versionErased hi hd hrow =>
    refine .done (fun h => h.2.elim (fun hnone => hnone ((hdescribed _).2 hd)) fun hnone => hrow ?_) ?_
    · rwa [Request.MissesVersion, Identity.rowOf_eq hholds] at hnone
    · refine Request.not_refused rfl hi fun hrange => hrow ?_
      exact hs.row?_version_of_gt hrange.2
  | halfErased hm => exact .failed hm
  | erased hi => exact .done (fun h => h.1) (Request.not_refused rfl hi id)

/-! ## What a failure decides -/

/-- The failure is one of the table, told by an activity or not yet told. -/
def Failure.OfTable : Failure → Prop
  | .table _ | .registry _ _ _ => True
  | .invalid _ | .missing _ | .counterOutOfRange | .unwritable | .undecodable _ | .unexpected _ => False

namespace Work

variable {α : Type}

/-- After a command that failed the work asks nothing more and ends with a failure of the table. -/
def Stops (x : Work α) : Prop := x.run.Stops fun r => ∃ failure, r = .error failure ∧ failure.OfTable

theorem compositional_stops {own : Bytes → Prop} : Compositional own fun _ x => x.Stops where
  of_pure _ := trivial
  of_throw _ := trivial
  of_ask _ _ := ⟨fun trouble => ⟨.table trouble, rfl, trivial⟩, fun _ => trivial⟩
  of_noteDone _ _ _ := trivial
  of_bind hx hf := Program.Stops.bind hx
    (fun r => by
      rintro ⟨failure, rfl, htable⟩
      exact ⟨failure, rfl, htable⟩)
    fun r => by
      cases r with
      | ok a => exact hf a
      | error failure => trivial
  of_within hx := Program.Stops.bind hx
    (fun r => by
      rintro ⟨failure, rfl, htable⟩
      cases failure with
      | table trouble => exact ⟨_, rfl, trivial⟩
      | registry activity i cause => exact ⟨_, rfl, trivial⟩
      | _ => exact htable.elim)
    fun r => by
      cases r with
      | ok a => trivial
      | error failure => cases failure <;> trivial

end Work

/-- **A request stops at the first command that fails.** -/
theorem Request.stops (request : Request) : request.work.Stops :=
  request.of_compositional Work.compositional_stops

/-! ## Calls that no failure strikes -/

/-- One of the commands that the call comes to on a table fails. -/
def Call.Struck (call : Call) (store : Store) : Prop :=
  call.request.work.run.struck Store.backend call.script store = true

instance (call : Call) (store : Store) : Decidable (call.Struck store) := inferInstanceAs (Decidable (_ = true))

/-- Without failures none strikes. -/
theorem Request.not_struck_calm (request : Request) (store : Store) : ¬request.calm.Struck store :=
  Bool.eq_false_iff.1 (Program.struck_nil _ _)

/-- A call that no failure strikes does what it does without failures. -/
theorem Call.event_of_not_struck {call : Call} (h : ¬call.Struck store) :
    (call.event store).result = (call.request.calm.event store).result ∧
      (call.event store).after = (call.request.calm.event store).after := by
  have hrun := Table.Program.run_of_not_struck _ (Bool.eq_false_iff.2 h)
  have hnone : call.request.work.run.struck Store.backend [] store = false := Table.Program.struck_nil _ _
  have hcalm := Table.Program.run_of_not_struck _ hnone
  exact ⟨hrun.1.trans hcalm.1.symm, hrun.2.trans hcalm.2.symm⟩

/-- A call that a failure strikes ends with a failure of the table. -/
theorem Call.error_of_struck {call : Call} (h : call.Struck store) :
    ∃ failure, (call.event store).result = .error failure ∧ failure.OfTable :=
  call.request.stops.value h

/-- **What decides a call that no failure strikes**: everything but a failure of the table. -/
theorem Call.decided_of_not_struck {call : Call} (hs : Orderly s) (hholds : store.Holds s)
    (hstruck : ¬call.Struck store) : Decided Table.Calm call.request store (call.event store).result := by
  obtain ⟨t, hleads⟩ := call.request.calm.exists_leads hs hholds
  rw [(Call.event_of_not_struck hstruck).1]
  exact (hleads.step.decided hs hholds).mono (Request.calm_calm _)

/-- **A call ends with what cannot be written** where its number is too long and no failure strikes it. -/
theorem Call.result_eq_unwritable_iff {call : Call} (hs : Orderly s) (hholds : store.Holds s) :
    (call.event store).result = .error .unwritable ↔ call.request.Unwritable store ∧ ¬call.Struck store := by
  by_cases hstruck : call.Struck store
  · obtain ⟨failure, herror, htable⟩ := Call.error_of_struck hstruck
    refine iff_of_false (fun h => ?_) fun h => h.2 hstruck
    rw [Except.error.inj (herror.symm.trans h)] at htable
    exact htable
  · have hdecided := Call.decided_of_not_struck hs hholds hstruck
    generalize (call.event store).result = result at hdecided ⊢
    cases hdecided with
    | done hfound => exact iff_of_false (by simp) fun h => hfound (h.1.misses hs hholds)
    | missing _ _ hwritable => exact iff_of_false (by simp) fun h => hwritable h.1
    | refused _ hwritable => exact iff_of_false (by simp) fun h => hwritable h.1
    | unwritable hlong => exact iff_of_true rfl ⟨hlong, hstruck⟩
    | failed hm => exact hm.elim

/-! ## Identities that do not fit into keys -/

namespace Work

variable {α β : Type} {P : Invalid → Prop} {x : Work α}

/-- The work asks nothing and is refused for one of some reasons. -/
def IsRefused (P : Invalid → Prop) (x : Work α) : Prop :=
  x.run.EndsIn fun r => ∃ reason, r = .error (.invalid reason) ∧ P reason

theorem isRefused_throw {reason : Invalid} (h : P reason) : (throw (.invalid reason) : Work α).IsRefused P :=
  ⟨reason, rfl, h⟩

theorem IsRefused.bind (h : x.IsRefused P) (f : α → Work β) : (x >>= f).IsRefused P :=
  Program.EndsIn.bind h fun r => by
    rintro ⟨reason, rfl, hreason⟩
    exact ⟨reason, rfl, hreason⟩

theorem IsRefused.within (h : x.IsRefused P) (activity : Activity) (i : Identity) :
    (within activity i x).IsRefused P :=
  Program.EndsIn.bind h fun r => by
    rintro ⟨reason, rfl, hreason⟩
    exact ⟨reason, rfl, hreason⟩

end Work

/-- The reasons to refuse a request whatever a table holds: its inputs, or its identity that has no keys. -/
def Request.RefusedFor (request : Request) (reason : Invalid) : Prop :=
  request.check = .error reason ∨ request.check = .ok () ∧ request.identity.stem = .error reason

open Work in
/-- **A request about an identity that does not fit is refused** before the table is asked. -/
theorem Request.isRefused (request : Request) (hi : ¬request.identity.Fits) :
    request.work.IsRefused request.RefusedFor := by
  obtain ⟨part, size, hstem⟩ := Identity.stem_of_not_fits hi
  have hdescriptorOf : request.check = .ok () → (descriptorOf request.identity).IsRefused request.RefusedFor := by
    intro hcheck
    rw [descriptorOf_of_stem_error hstem]
    exact isRefused_throw (.inr ⟨hcheck, hstem⟩)
  have hisDescribed : request.check = .ok () →
      (Rows.isDescribed request.identity).IsRefused request.RefusedFor := by
    intro hcheck
    rw [Rows.isDescribed_of_stem_error hstem]
    exact isRefused_throw (.inr ⟨hcheck, hstem⟩)
  cases request with
  | describe draft =>
    cases hcheck : draft.check with
    | error reason =>
      have hrequest : (Request.describe draft).check = .error reason := by rw [check, hcheck]; rfl
      rw [work, Catalog.describe, Rows.checked_bind_error hcheck, fail, worded_of_check_error hrequest]
      exact (isRefused_throw (.inl hrequest)).bind _
    | ok format =>
      rw [work, Catalog.describe, Rows.checked_bind_ok hcheck]
      have hlook := hisDescribed (by rw [check, hcheck]; rfl)
      exact (((hlook.bind _).within _ _).bind _).bind _
  | append i content =>
    cases hcheck : checkContent content with
    | error reason =>
      have hrequest : (Request.append i content).check = .error reason := by rw [check, hcheck]; rfl
      rw [work, Catalog.append, Rows.checked_bind_error hcheck, fail, worded_of_check_error hrequest]
      exact (isRefused_throw (.inl hrequest)).bind _
    | ok octets =>
      rw [work, Catalog.append, Rows.checked_bind_ok hcheck]
      have hlook := hdescriptorOf (by rw [check, hcheck]; rfl)
      exact (((hlook.bind _).within _ _).bind _).bind _
  | entry i number => exact (((hdescriptorOf rfl).bind _).within _ _).bind _
  | numbers i => exact (((hdescriptorOf rfl).bind _).within _ _).bind _
  | contains i => exact ((hisDescribed rfl).within _ _).bind _
  | eraseVersion i number => exact ((((hdescriptorOf rfl).bind _).within _ _).bind _).bind _
  | erase i =>
    have herase : (Rows.erase i .descriptor).IsRefused (Request.erase i).RefusedFor := by
      rw [Rows.erase_of_error (Identity.key_of_stem_error (i := i) hstem rfl), fail,
        Failure.worded_of_stem_error (i := i) hstem]
      exact isRefused_throw (.inr ⟨rfl, hstem⟩)
    exact (((herase.bind _).within _ _).bind _).bind _

/-- A call about an identity that does not fit is refused, whatever is to fail, and the table stays as it was. -/
theorem Call.refused_of_not_fits (call : Call) (hi : ¬call.request.identity.Fits) (store : Store) :
    (∃ reason, (call.event store).result = .error (.invalid reason) ∧ call.request.RefusedFor reason) ∧
      (call.event store).after = store :=
  have h := call.request.isRefused hi
  ⟨h.value _ _, congrArg Prod.snd (h.state _ _)⟩

/-! ## Rows that can be read -/

/-- Whatever rows of the identity a table holds, the registry can read them. -/
structure Identity.IsReadable (i : Identity) (store : Store) : Prop where
  descriptor : ∃ descriptor, ((Rows.descriptor? i).run.run Store.backend store).value = .ok descriptor
  versions : ∃ versions, ((Rows.versions i).run.run Store.backend store).value = .ok versions
  counter : ∃ number, ((Rows.counter i).run.run Store.backend store).value = .ok number

theorem Orderly.isReadable (hs : Orderly s) (hholds : store.Holds s) (hi : i.Fits) : i.IsReadable store where
  descriptor := ⟨_, (Rows.tries_descriptor? hs hi).run Store.represents hholds⟩
  versions := ⟨_, (Rows.tries_versions hs hi).run Store.represents hholds⟩
  counter := ⟨_, (Rows.tries_counter hs hi).run Store.represents hholds⟩

end Schemata.Catalog

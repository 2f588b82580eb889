import Schemata.Proofs.Catalog.Rows
import Schemata.Proofs.Text.Decimal

/-!
# One request to the registry

- A `Request` is one of the seven operations with its inputs; its work ends with a `Reply` or a failure.
- `Step may s request result t` lists all that a request can do to orderly contents: it is refused, it fails before it
  has changed anything, it fails midway, or it does what it is for. Here a command may fail with a trouble that `may`
  allows.
- Every end of a request's work is a step (`Request.step_of_ends`). What is said about requests later on follows from
  the steps alone.
-/

namespace Schemata.Catalog

open Table (Contents Trouble)

/-! ## Requests -/

/-- One operation with its inputs. -/
inductive Request where
  | describe (draft : Draft)
  | append (identity : Identity) (content : Option Bytes)
  | entry (identity : Identity) (number : Option Int)
  | numbers (identity : Identity)
  | contains (identity : Identity)
  | eraseVersion (identity : Identity) (number : Int)
  | erase (identity : Identity)
  deriving DecidableEq

/-- What a request is answered with. -/
inductive Reply where
  | done
  /-- The number of a version that was appended. -/
  | number (n : Nat)
  | entry (e : Entry)
  | numbers (ns : List Int)
  | answer (b : Bool)

namespace Request

/-- The identity that a request is about. -/
def identity : Request → Identity
  | describe draft => draft.identity
  | append i _ | entry i _ | numbers i | contains i | eraseVersion i _ | erase i => i

/-- What a request is doing when a table fails. -/
def activity : Request → Activity
  | describe _ => .create
  | append _ _ => .add
  | entry _ _ => .read
  | numbers _ => .list
  | contains _ => .lookUp
  | eraseVersion _ _ => .remove
  | erase _ => .delete

/-- The work of a request. -/
def work : Request → Work Reply
  | describe draft => do Catalog.describe draft; return .done
  | append i content => return .number (← Catalog.append i content)
  | entry i number => return .entry (← Catalog.entry i number)
  | numbers i => return .numbers (← Catalog.numbers i)
  | contains i => return .answer (← Catalog.contains i)
  | eraseVersion i number => do Catalog.eraseVersion i number; return .done
  | erase i => do Catalog.erase i; return .done

/-- Refuses a draft that may not be written and an empty content. -/
def check : Request → Except Invalid Unit
  | describe draft => draft.check.map fun _ => ()
  | append _ content => (checkContent content).map fun _ => ()
  | _ => .ok ()

/-- The version that a request names, if it names one. -/
def version? : Request → Option Int
  | entry _ number => number
  | eraseVersion _ number => some number
  | describe _ | append _ _ | numbers _ | contains _ | erase _ => none

/-- Whether a request is for identities that exist. -/
def needsDescriptor : Request → Prop
  | append _ _ | entry _ _ | numbers _ | eraseVersion _ _ => True
  | describe _ | contains _ | erase _ => False

end Request

/-- A draft is not refused for a number. -/
theorem Draft.number?_of_check {draft : Draft} {reason : Invalid} (h : draft.check = .error reason) :
    reason.number? = none := by
  rw [check] at h
  split at h
  · cases h
    rfl
  split at h
  · cases h
    rfl
  split at h
  · cases h
    rfl
  split at h
  · cases h
  · cases h
    rfl

/-- Refused inputs are not refused for a number, so this can be put into words. -/
theorem Request.worded_of_check_error {request : Request} {reason : Invalid} (h : request.check = .error reason) :
    (Failure.invalid reason).worded = .invalid reason := by
  apply Failure.worded_of_none
  cases request with
  | describe draft =>
    cases hcheck : draft.check with
    | ok format =>
      rw [check, hcheck] at h
      cases h
    | error reason' =>
      rw [check, hcheck] at h
      cases h
      exact Draft.number?_of_check hcheck
  | append i content =>
    rcases content with _ | _ | ⟨first, rest⟩
    · cases h
      rfl
    · cases h
      rfl
    · cases h
  | _ => cases h

theorem exists_cons_of_check {i : Identity} {content : Option Bytes} (h : (Request.append i content).check = .ok ()) :
    ∃ first rest, content = some (first :: rest) := by
  rcases content with _ | _ | ⟨first, rest⟩
  · cases h
  · cases h
  · exact ⟨first, rest, rfl⟩

/-- The entry that a descriptor, the versions and one of them make. -/
def Descriptor.entry (descriptor : Descriptor) (i : Identity) (versions : List Version) (selected : Version) : Entry :=
  ⟨i, descriptor.name, descriptor.description, descriptor.format, selected.number, selected.content,
    versions.map (·.number)⟩

/-! ## Steps -/

/-- The contents after a content was stored as the next version, its number not yet counted. -/
def Identity.storedIn (i : Identity) (s : Contents) (content : Bytes) : Contents :=
  i.putRow s (.version (i.latestIn s + 1 : Nat)) content

/-- The contents after a content was appended. -/
def Identity.appendedIn (i : Identity) (s : Contents) (content : Bytes) : Contents :=
  i.putRow (i.storedIn s content) .counter (Bytes.bigEndian 8 (i.latestIn s + 1))

/-- What a request can do to contents. -/
inductive Step (may : Trouble → Prop) (s : Contents) : Request → Except Failure Reply → Contents → Prop
  /-- The inputs are refused. -/
  | refused {request reason} (hcheck : request.check = .error reason) : Step may s request (.error (.invalid reason)) s
  /-- The identity does not fit into keys. -/
  | unfit {request reason} (hcheck : request.check = .ok ()) (hstem : request.identity.stem = .error reason) :
    Step may s request (.error (.invalid reason)) s
  /-- A command failed before anything was changed. -/
  | failed {request trouble} (hm : may trouble) :
    Step may s request (.error (.registry request.activity request.identity trouble)) s
  /-- There is no descriptor. -/
  | absent {request} (hcheck : request.check = .ok ()) (hneeds : request.needsDescriptor) (hi : request.identity.Fits)
    (hd : ¬request.identity.DescribedIn s) : Step may s request (.error (.missing (.schema request.identity))) s
  /-- A command failed while what an earlier erasure left was taken out. -/
  | halfCleared {draft trouble rows} (hm : may trouble) (hd : ¬draft.identity.DescribedIn s)
    (hrows : .descriptor ∉ rows) :
    Step may s (.describe draft) (.error (.registry .create draft.identity trouble)) (draft.identity.eraseRows rows s)
  /-- The identity is described for the first time. -/
  | described {draft format} (hcheck : draft.check = .ok format) (hi : draft.identity.Fits)
    (hd : ¬draft.identity.DescribedIn s) :
    Step may s (.describe draft) (.ok .done)
      (draft.identity.putRow (draft.identity.eraseRows (draft.identity.leftovers s) s) .descriptor
        (draft.descriptor format).row)
  /-- The identity is described anew. -/
  | redescribed {draft format} (hcheck : draft.check = .ok format) (hi : draft.identity.Fits)
    (hd : draft.identity.DescribedIn s) :
    Step may s (.describe draft) (.ok .done)
      (draft.identity.putRow s .descriptor (draft.descriptor format).row)
  /-- There is no number left. -/
  | full {i content} (hcheck : (Request.append i content).check = .ok ()) (hi : i.Fits) (hd : i.DescribedIn s)
    (hlatest : i.latestIn s = maxVersion) :
    Step may s (.append i content) (.error (.invalid (.versionOutOfRange (maxVersion + 1 : Nat)))) s
  /-- The content was stored, and counting it failed. -/
  | halfAppended {i first rest trouble} (hm : may trouble) (hi : i.Fits) (hd : i.DescribedIn s)
    (hlatest : i.latestIn s < maxVersion) :
    Step may s (.append i (some (first :: rest))) (.error (.registry .add i trouble)) (i.storedIn s (first :: rest))
  /-- The content was appended. -/
  | appended {i first rest} (hi : i.Fits) (hd : i.DescribedIn s) (hlatest : i.latestIn s < maxVersion) :
    Step may s (.append i (some (first :: rest))) (.ok (.number (i.latestIn s + 1))) (i.appendedIn s (first :: rest))
  /-- The version is not there. -/
  | unselected {i number what failure} (hi : i.Fits) (hd : i.DescribedIn s)
    (hselect : selectVersion i number (i.versionsIn s) = .error what)
    (hfailure : failure = (Failure.missing what).worded) : Step may s (.entry i number) (.error failure) s
  /-- The entry is told. -/
  | told {i number descriptor selected} (hi : i.Fits) (hd : i.descriptorIn s = some descriptor)
    (hselect : selectVersion i number (i.versionsIn s) = .ok selected) :
    Step may s (.entry i number) (.ok (.entry (descriptor.entry i (i.versionsIn s) selected))) s
  /-- The numbers are listed. -/
  | listed {i} (hi : i.Fits) (hd : i.DescribedIn s) :
    Step may s (.numbers i) (.ok (.numbers ((i.versionsIn s).map (·.number)))) s
  /-- It is told whether there is a descriptor. -/
  | answered {i} (hi : i.Fits) : Step may s (.contains i) (.ok (.answer (i.row? s .descriptor).isSome)) s
  /-- There is no such version to erase. -/
  | unversioned {i failure} {number : Int} (hi : i.Fits) (hd : i.DescribedIn s) (hmax : number ≤ maxVersion)
    (hrow : i.row? s (.version number) = none) (hfailure : failure = (Failure.missing (.version i number)).worded) :
    Step may s (.eraseVersion i number) (.error failure) s
  /-- There can be no such version. -/
  | beyond {i failure} {number : Int} (hi : i.Fits) (hd : i.DescribedIn s) (hmax : maxVersion < number)
    (hfailure : failure = (Failure.invalid (.versionOutOfRange number)).worded) :
    Step may s (.eraseVersion i number) (.error failure) s
  /-- The version is erased. -/
  | versionErased {i} {number : Int} (hi : i.Fits) (hd : i.DescribedIn s) (hrow : i.row? s (.version number) ≠ none) :
    Step may s (.eraseVersion i number) (.ok .done) (i.eraseRow s (.version number))
  /-- The descriptor was taken out, and a command failed while the other rows were. -/
  | halfErased {i trouble rows} (hm : may trouble) (hi : i.Fits) :
    Step may s (.erase i) (.error (.registry .delete i trouble)) (i.eraseRows (.descriptor :: rows) s)
  /-- The identity is erased. -/
  | erased {i} (hi : i.Fits) :
    Step may s (.erase i) (.ok .done)
      (i.eraseRows (i.leftovers (i.eraseRow s .descriptor)) (i.eraseRow s .descriptor))

/-! ## The ends of requests -/

section Operations

open Work

-- Substituting contents would otherwise compute whether there is a key and whether a number may be written, and compare
-- numbers step by step.
attribute [local irreducible] maxVersion Text.isWritable

variable {may : Trouble → Prop} {i : Identity} {s t : Contents}

theorem Orderly.describedIn_of (hs : Orderly s) {descriptor : Descriptor} (h : i.descriptorIn s = some descriptor) :
    i.DescribedIn s := by
  by_cases hd : i.DescribedIn s
  · exact hd
  · rw [hs.descriptorIn_eq_none_iff.2 hd] at h
    cases h

theorem descriptorOf_of_stem_error {reason : Invalid} (h : i.stem = .error reason) :
    descriptorOf i = throw (.invalid reason) := by
  rw [descriptorOf, Rows.descriptor?_of_stem_error h]
  rfl

theorem except_map_id {α : Type} (r : Except Failure α) : r.map id = r := by cases r <;> rfl

theorem throw_bind {α β : Type} {failure : Failure} {f : α → Work β} :
    ((throw failure : Work α) >>= f) = throw failure := rfl

/-- The number after the last one can be put into words. -/
theorem worded_beyond_maxVersion : (Failure.invalid (.versionOutOfRange (maxVersion + 1 : Nat))).worded =
    .invalid (.versionOutOfRange (maxVersion + 1 : Nat)) := by
  have hwritable : Text.isWritable (maxVersion + 1 : Nat) = true :=
    Text.isWritable_of_le (Nat.le_of_eq maxVersion_succ)
  rw [Failure.worded_of_number rfl, if_pos hwritable]

/-- What fails in words fails so during an activity, unless it is the table that fails. -/
theorem during_worded {failure : Failure} {activity : Activity} (h : failure.during activity i = failure) :
    failure.worded.during activity i = failure.worded := by
  rw [Failure.worded]
  split
  · exact h
  · rfl

theorem fits_or_stem_error (i : Identity) : i.Fits ∨ ∃ reason, i.stem = .error reason := by
  by_cases hi : i.Fits
  · exact Or.inl hi
  · obtain ⟨part, size, h⟩ := Identity.stem_of_not_fits hi
    exact Or.inr ⟨_, h⟩

/-- What follows the look at the descriptor runs only if there is one. -/
theorem ends_descriptorOf_bind {β : Type} {f : Descriptor → Work β} {r : Except Failure β} (hs : Orderly s)
    (hi : i.Fits) (h : (descriptorOf i >>= f).Ends may s r t) :
    (∃ trouble, may trouble ∧ r = .error (.table trouble) ∧ t = s) ∨
      (¬i.DescribedIn s ∧ r = .error (.missing (.schema i)) ∧ t = s) ∨
        ∃ descriptor, i.descriptorIn s = some descriptor ∧ (f descriptor).Ends may s r t := by
  rw [descriptorOf, bind_assoc] at h
  rcases (Rows.tries_descriptor? hs hi).ends_bind.1 h with hfailed | h
  · exact Or.inl hfailed
  cases hd : i.descriptorIn s with
  | none =>
    rw [hd] at h
    exact Or.inr (Or.inl ⟨hs.descriptorIn_eq_none_iff.1 hd, ends_throw.1 h⟩)
  | some descriptor =>
    rw [hd] at h
    exact Or.inr (Or.inr ⟨descriptor, rfl, h⟩)

/-- A request for identities that exist, from the look at the descriptor on. -/
theorem step_of_ends_descriptorOf_bind {β : Type} {f : Descriptor → Work β} {g : β → Reply} {r : Except Failure β}
    {request : Request} {activity : Activity} (hs : Orderly s) (hi : request.identity = i)
    (ha : request.activity = activity) (hcheck : request.check = .ok ()) (hneeds : request.needsDescriptor)
    (h : (descriptorOf i >>= f).Ends may s r t)
    (hf : ∀ descriptor, i.Fits → i.descriptorIn s = some descriptor → (f descriptor).Ends may s r t →
      Step may s request ((r.mapError (·.during activity i)).map g) t) :
    Step may s request ((r.mapError (·.during activity i)).map g) t := by
  subst hi ha
  rcases fits_or_stem_error request.identity with hi | ⟨reason, hstem⟩
  · rcases ends_descriptorOf_bind hs hi h with ⟨trouble, hm, rfl, rfl⟩ | ⟨hd, rfl, rfl⟩ | ⟨descriptor, hd, hrest⟩
    · exact .failed hm
    · exact .absent hcheck hneeds hi hd
    · exact hf descriptor hi hd hrest
  · rw [descriptorOf_of_stem_error hstem] at h
    obtain ⟨rfl, rfl⟩ := ends_throw.1 h
    exact .unfit hcheck hstem

theorem eq_cons_of_checkContent {content : Option Bytes} {octets : Bytes} (h : checkContent content = .ok octets) :
    ∃ first rest, content = some (first :: rest) ∧ octets = first :: rest := by
  rcases content with _ | _ | ⟨first, rest⟩
  · cases h
  · cases h
  · cases h
    exact ⟨first, rest, rfl, rfl⟩

theorem step_of_ends_append {content : Option Bytes} {r : Except Failure Nat} (hs : Orderly s)
    (h : (append i content).Ends may s r t) : Step may s (.append i content) (r.map .number) t := by
  rw [append] at h
  cases hc : checkContent content with
  | error reason =>
    have hcheck : (Request.append i content).check = .error reason := by rw [Request.check, hc]; rfl
    rw [Rows.checked_bind_error hc, fail, Request.worded_of_check_error hcheck] at h
    obtain ⟨rfl, rfl⟩ := ends_throw.1 h
    exact .refused hcheck
  | ok octets =>
    have hcheck : (Request.append i content).check = .ok () := by rw [Request.check, hc]; rfl
    rw [Rows.checked_bind_ok hc] at h
    obtain ⟨r', hw, rfl⟩ := (ends_bind_pure (g := id) (by intros; exact ends_noteDone_bind.trans ends_pure)).1 h
    obtain ⟨r, hin, rfl⟩ := ends_within.1 hw
    rw [except_map_id]
    refine step_of_ends_descriptorOf_bind hs rfl rfl hcheck trivial hin fun descriptor hi hdescriptor hin => ?_
    have hd := hs.describedIn_of hdescriptor
    rcases (Rows.tries_counter hs hi).ends_bind.1 hin with ⟨trouble, hm, rfl, rfl⟩ | hin
    · exact .failed hm
    rcases (Rows.tries_versions hs hi).ends_bind.1 hin with ⟨trouble, hm, rfl, rfl⟩ | hin
    · exact .failed hm
    simp only [Identity.nextVersion_eq] at hin
    by_cases hlatest : i.latestIn s < maxVersion
    · have hnext : i.latestIn s + 1 ≤ maxVersion := hlatest
      rcases (Rows.tries_put (Identity.key_version hi hnext)).ends_bind.1 hin with ⟨trouble, hm, rfl, rfl⟩ | hin
      · exact .failed hm
      obtain ⟨first, rest, rfl, rfl⟩ := eq_cons_of_checkContent hc
      rcases (Rows.tries_putCounter hi hnext).ends_bind.1 hin with ⟨trouble, hm, rfl, rfl⟩ | hin
      · exact .halfAppended hm hi hd hlatest
      · obtain ⟨rfl, rfl⟩ := ends_pure.1 hin
        exact .appended hi hd hlatest
    · have hfull : i.latestIn s = maxVersion := Nat.le_antisymm (hs.latestIn_le hi) (Nat.le_of_not_lt hlatest)
      rw [hfull, Rows.put_of_error (Identity.key_version_of_gt (by omega)), fail, worded_beyond_maxVersion,
        throw_bind] at hin
      obtain ⟨rfl, rfl⟩ := ends_throw.1 hin
      exact .full hcheck hi hd hfull

theorem step_of_ends_describe {draft : Draft} {r : Except Failure Unit} (hs : Orderly s)
    (h : (describe draft).Ends may s r t) : Step may s (.describe draft) (r.map fun _ => .done) t := by
  rw [describe] at h
  cases hc : draft.check with
  | error reason =>
    have hcheck : (Request.describe draft).check = .error reason := by rw [Request.check, hc]; rfl
    rw [Rows.checked_bind_error hc, fail, Request.worded_of_check_error hcheck] at h
    obtain ⟨rfl, rfl⟩ := ends_throw.1 h
    exact .refused hcheck
  | ok format =>
    have hcheck : (Request.describe draft).check = .ok () := by rw [Request.check, hc]; rfl
    rw [Rows.checked_bind_ok hc] at h
    obtain ⟨r', hw, rfl⟩ := (ends_bind_pure (g := id) (by intros; exact ends_noteDone)).1 h
    obtain ⟨r, hin, rfl⟩ := ends_within.1 hw
    rcases fits_or_stem_error draft.identity with hi | ⟨reason, hstem⟩
    swap
    · rw [Rows.isDescribed_of_stem_error hstem] at hin
      obtain ⟨rfl, rfl⟩ := ends_throw.1 hin
      exact .unfit hcheck hstem
    rcases (Rows.tries_isDescribed hi).ends_bind.1 hin with ⟨trouble, hm, rfl, rfl⟩ | hin
    · exact .failed hm
    have hkey := Identity.key_descriptor hi
    cases hd : draft.identity.row? s .descriptor with
    | some octets =>
      have hd' : draft.identity.DescribedIn s := by simp [Identity.DescribedIn, hd]
      rw [hd] at hin
      rcases (Rows.tries_put hkey _ _).1 hin with ⟨trouble, hm, rfl, rfl⟩ | ⟨rfl, rfl⟩
      · exact .failed hm
      · exact .redescribed hc hi hd'
    | none =>
      have hd' : ¬draft.identity.DescribedIn s := by simp [Identity.DescribedIn, hd]
      rw [hd] at hin
      change (clear draft.identity >>= fun _ => Rows.putDescriptor (draft.descriptor format)).Ends may s r t at hin
      rcases ends_bind.1 hin with ⟨failure, hcut, hr⟩ | ⟨count, u, hall, hput⟩
      · rcases ends_clear hs hi hcut with ⟨trouble, rows, hm, hfailure, hrows, rfl⟩ | ⟨hdone, -⟩
        · cases hfailure
          rw [hr]
          exact .halfCleared hm hd' hrows
        · cases hdone
      · rcases ends_clear hs hi hall with ⟨trouble, rows, -, hfailure, -, -⟩ | ⟨-, rfl⟩
        · cases hfailure
        rcases (Rows.tries_put hkey _ _).1 hput with ⟨trouble, hm, rfl, rfl⟩ | ⟨rfl, rfl⟩
        · exact .halfCleared hm hd' descriptor_notMem_leftovers
        · exact .described hc hi hd'

theorem step_of_ends_entry {number : Option Int} {r : Except Failure Entry} (hs : Orderly s)
    (h : (entry i number).Ends may s r t) : Step may s (.entry i number) (r.map .entry) t := by
  rw [entry] at h
  obtain ⟨r, hin, rfl⟩ := ends_within.1 h
  refine step_of_ends_descriptorOf_bind hs rfl rfl rfl trivial hin fun descriptor hi hd hin => ?_
  rcases (Rows.tries_versions hs hi).ends_bind.1 hin with ⟨trouble, hm, rfl, rfl⟩ | hin
  · exact .failed hm
  cases hselect : selectVersion i number (i.versionsIn s) with
  | error what =>
    rw [hselect] at hin
    obtain ⟨rfl, rfl⟩ := ends_throw.1 hin
    exact .unselected hi (hs.describedIn_of hd) hselect (during_worded rfl)
  | ok selected =>
    rw [hselect] at hin
    obtain ⟨rfl, rfl⟩ := ends_pure.1 hin
    exact .told hi hd hselect

theorem step_of_ends_numbers {r : Except Failure (List Int)} (hs : Orderly s)
    (h : (numbers i).Ends may s r t) : Step may s (.numbers i) (r.map .numbers) t := by
  rw [numbers] at h
  obtain ⟨r, hin, rfl⟩ := ends_within.1 h
  refine step_of_ends_descriptorOf_bind hs rfl rfl rfl trivial hin fun descriptor hi hd hin => ?_
  rcases (Rows.tries_versions hs hi).ends_bind.1 hin with ⟨trouble, hm, rfl, rfl⟩ | hin
  · exact .failed hm
  · obtain ⟨rfl, rfl⟩ := ends_pure.1 hin
    exact .listed hi (hs.describedIn_of hd)

theorem step_of_ends_contains {r : Except Failure Bool} (h : (contains i).Ends may s r t) :
    Step may s (.contains i) (r.map .answer) t := by
  rw [contains] at h
  obtain ⟨r, hin, rfl⟩ := ends_within.1 h
  rcases fits_or_stem_error i with hi | ⟨reason, hstem⟩
  swap
  · rw [Rows.isDescribed_of_stem_error hstem] at hin
    obtain ⟨rfl, rfl⟩ := ends_throw.1 hin
    exact .unfit rfl hstem
  rcases (Rows.tries_isDescribed hi _ _).1 hin with ⟨trouble, hm, rfl, rfl⟩ | ⟨rfl, rfl⟩
  · exact .failed hm
  · exact .answered hi

theorem step_of_ends_eraseVersion {number : Int} {r : Except Failure Unit} (hs : Orderly s)
    (h : (eraseVersion i number).Ends may s r t) : Step may s (.eraseVersion i number) (r.map fun _ => .done) t := by
  rw [eraseVersion] at h
  obtain ⟨r', hw, rfl⟩ := (ends_bind_pure (g := id) (by intros; exact ends_noteDone)).1 h
  obtain ⟨r, hin, rfl⟩ := ends_within.1 hw
  rw [except_map_id]
  refine step_of_ends_descriptorOf_bind hs rfl rfl rfl trivial hin fun descriptor hi hdescriptor hin => ?_
  have hd := hs.describedIn_of hdescriptor
  by_cases hmin : number < 1
  · rw [Rows.content?, if_pos hmin] at hin
    obtain ⟨rfl, rfl⟩ := ends_throw.1 hin
    exact .unversioned hi hd (by omega) (hs.row?_version_of_lt hmin) (during_worded rfl)
  rw [Rows.content?, if_neg hmin] at hin
  by_cases hmax : number ≤ maxVersion
  · obtain ⟨m, rfl⟩ := Int.eq_ofNat_of_zero_le (show 0 ≤ number by omega)
    have hkey := Identity.key_version hi (Int.ofNat_le.1 hmax)
    rcases (Rows.tries_octets? hkey).ends_bind.1 hin with ⟨trouble, hm, rfl, rfl⟩ | hin
    · exact .failed hm
    cases hrow : i.row? s (.version m) with
    | none =>
      rw [hrow] at hin
      obtain ⟨rfl, rfl⟩ := ends_throw.1 hin
      exact .unversioned hi hd hmax hrow (during_worded rfl)
    | some content =>
      rw [hrow] at hin
      rcases (Rows.tries_erase hkey _ _).1 hin with ⟨trouble, hm, rfl, rfl⟩ | ⟨rfl, rfl⟩
      · exact .failed hm
      · exact .versionErased hi hd (by simp [hrow])
  · rw [Rows.octets?_of_error (Identity.key_version_of_gt (by omega)), fail, throw_bind] at hin
    obtain ⟨rfl, rfl⟩ := ends_throw.1 hin
    exact .beyond hi hd (by omega) (during_worded rfl)

theorem step_of_ends_erase {r : Except Failure Unit} (hs : Orderly s)
    (h : (erase i).Ends may s r t) : Step may s (.erase i) (r.map fun _ => .done) t := by
  rw [erase] at h
  obtain ⟨r', hw, rfl⟩ := (ends_bind_pure (g := fun _ => ()) (by intros; exact ends_noteDone)).1 h
  obtain ⟨r, hin, rfl⟩ := ends_within.1 hw
  rcases fits_or_stem_error i with hi | ⟨reason, hstem⟩
  swap
  · rw [Rows.erase_of_error (Identity.key_of_stem_error hstem rfl), fail, Failure.worded_of_stem_error hstem] at hin
    obtain ⟨rfl, rfl⟩ := ends_throw.1 hin
    exact .unfit rfl hstem
  rcases (Rows.tries_erase (Identity.key_descriptor hi)).ends_bind.1 hin with ⟨trouble, hm, rfl, rfl⟩ | hin
  · exact .failed hm
  rcases ends_clear hs.eraseRow hi hin with ⟨trouble, rows, hm, rfl, -, rfl⟩ | ⟨rfl, rfl⟩
  · exact .halfErased hm hi
  · exact .erased hi

/-- **Every end of a request is a step.** -/
theorem Request.step_of_ends {request : Request} {r : Except Failure Reply} (hs : Orderly s)
    (h : request.work.Ends may s r t) : Step may s request r t := by
  cases request with
  | describe draft =>
    obtain ⟨r', hin, rfl⟩ := (ends_bind_pure (g := fun _ => Reply.done) (by intros; exact ends_pure)).1 h
    exact step_of_ends_describe hs hin
  | append i content =>
    obtain ⟨r', hin, rfl⟩ := (ends_bind_pure (g := Reply.number) (by intros; exact ends_pure)).1 h
    exact step_of_ends_append hs hin
  | entry i number =>
    obtain ⟨r', hin, rfl⟩ := (ends_bind_pure (g := Reply.entry) (by intros; exact ends_pure)).1 h
    exact step_of_ends_entry hs hin
  | numbers i =>
    obtain ⟨r', hin, rfl⟩ := (ends_bind_pure (g := Reply.numbers) (by intros; exact ends_pure)).1 h
    exact step_of_ends_numbers hs hin
  | contains i =>
    obtain ⟨r', hin, rfl⟩ := (ends_bind_pure (g := Reply.answer) (by intros; exact ends_pure)).1 h
    exact step_of_ends_contains hin
  | eraseVersion i number =>
    obtain ⟨r', hin, rfl⟩ := (ends_bind_pure (g := fun _ => Reply.done) (by intros; exact ends_pure)).1 h
    exact step_of_ends_eraseVersion hs hin
  | erase i =>
    obtain ⟨r', hin, rfl⟩ := (ends_bind_pure (g := fun _ => Reply.done) (by intros; exact ends_pure)).1 h
    exact step_of_ends_erase hs hin

end Operations

end Schemata.Catalog

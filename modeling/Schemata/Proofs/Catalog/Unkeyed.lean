import Schemata.Proofs.Catalog.Erasure

/-!
# Inputs without keys

Keys are where sizes and numbers are checked, so an input that no key can hold is refused only where a key is made of
it. Every operation makes a key of its identity before it asks the table. A key of a version that was asked for is made
by an erasure alone, behind the descriptor and if the number is at least one; an entry is looked for among the versions
that a scan finds.

- A request about a number that no row can have finds none and leaves the contents as they are
  (`Request.misses_of_unnumbered`, `Step.eq_of_unnumbered`).
- So an identity that does not fit into keys is always refused, and such a number only by an erasure from an identity
  that has a descriptor, where it is too great and not too long to be written (`unkeyed_refused`,
  `not_unkeyed_refused`).
-/

namespace Schemata.Catalog

open Table (Contents Script Store Trouble)

variable {may : Trouble → Prop} {i : Identity} {s t : Contents} {store : Store} {request : Request}
  {result : Except Failure Reply} {n : Int}

/-! ## Numbers that no row can have -/

/-- A request about such a version changes nothing, whatever fails in it. -/
theorem Step.eq_of_unnumbered (h : Step may s request result t) (hs : Orderly s)
    (hversion : request.version? = some n) (hn : ¬(0 ≤ n ∧ n ≤ maxVersion)) : t = s := by
  cases h with
  | versionErased _ _ hrow =>
    obtain rfl := Option.some.inj hversion
    exact absurd (hs.row?_of_unnumbered hn) hrow
  | halfCleared => cases hversion
  | described => cases hversion
  | redescribed => cases hversion
  | halfAppended => cases hversion
  | appended => cases hversion
  | halfErased => cases hversion
  | erased => cases hversion
  | _ => rfl

/-- A request that names a version is refused for its identity, or for the number where the key of that version would
be made. -/
theorem Request.refused_iff_of_version (hversion : request.version? = some n) :
    request.Refused store ↔ ¬request.identity.Fits ∨
      ∃ i, request = .eraseVersion i n ∧ i.IsDescribed store ∧ maxVersion < n := by
  have hfaultless : ¬request.IsFaulty := by
    cases request with
    | entry i number => exact id
    | eraseVersion i number => exact id
    | _ => cases hversion
  have hrange : request.OutOfRange store ↔
      ∃ i, request = .eraseVersion i n ∧ i.IsDescribed store ∧ maxVersion < n := by
    cases request with
    | entry i number => simp [OutOfRange]
    | eraseVersion i number =>
      obtain rfl := Option.some.inj hversion
      simp [OutOfRange]
    | _ => cases hversion
  rw [Refused, hrange]
  exact or_iff_right hfaultless

/-- A request that names a version cannot be told what is wrong with it where the number is too long. -/
theorem Request.unwritable_iff_of_version (hversion : request.version? = some n) :
    request.Unwritable store ↔ request.identity.IsDescribed store ∧ 10 ^ 4300 ≤ n.natAbs := by
  simp only [Unwritable, hversion, Option.some.injEq, exists_eq_left']

/-- **What a request comes to that misses what it is about** and that no failure strikes: a refusal, nothing that can be
written, or what is missing. -/
theorem Decided.of_misses (h : Decided Table.Calm request store result) (hmisses : request.Misses store) :
    ((∃ reason, result = .error (.invalid reason)) ↔ request.Refused store ∧ ¬request.Unwritable store) ∧
    (result = .error .unwritable ↔ request.Unwritable store) ∧
    ((∃ reason, result = .error (.invalid reason)) ∨ result = .error .unwritable ∨
      ∃ what, result = .error (.missing what)) := by
  cases h with
  | done hfound => exact absurd hmisses hfound
  | missing _ haccepted hwritable =>
    refine ⟨iff_of_false ?_ fun h => haccepted h.1, iff_of_false (by simp) hwritable, .inr (.inr ⟨_, rfl⟩)⟩
    simp
  | refused hrefused hwritable =>
    exact ⟨iff_of_true ⟨_, rfl⟩ ⟨hrefused, hwritable⟩, iff_of_false (by simp) hwritable, .inl ⟨_, rfl⟩⟩
  | unwritable hlong =>
    exact ⟨iff_of_false (by simp) fun h => h.2 hlong, iff_of_true rfl hlong, .inr (.inl rfl)⟩
  | failed hm => exact hm.elim

/-- Only an identity that fits is there. -/
theorem not_isDescribed_of_not_fits (hholds : store.Holds s) (hi : ¬i.Fits) : ¬i.IsDescribed store := fun hd =>
  hi (fits_of_describedIn ((Identity.isDescribed_iff hholds).1 hd))

/-- **Inputs without keys.** After any calls on a new table, with any failures: a request about an identity that does
not fit into keys is refused, whichever it is, and the table stays as it was. A request about a version whose number no
row can have leaves all rows as they were. Unless a failure strikes, it is refused exactly if its identity does not fit,
or if it is an erasure of a number that is too great from an identity with a descriptor and the number has no more than
4300 digits. If the identity has a descriptor and the number has more digits, then the number cannot be written, and
otherwise the request ends with what is missing. -/
theorem unkeyed_refused (hnew : store.IsNew) (calls : List Call) (request : Request) (script : Script) {event : Event}
    (hevent : event = Call.event ⟨request, script⟩ (afterCalls calls store)) :
    (¬request.identity.Fits → (∃ reason, event.result = .error (.invalid reason)) ∧ event.after = event.before) ∧
    ∀ n, request.version? = some n → ¬(0 ≤ n ∧ n ≤ maxVersion) →
      event.after.rows = event.before.rows ∧
      (¬event.call.Struck event.before →
        ((∃ reason, event.result = .error (.invalid reason)) ↔ ¬request.identity.Fits ∨
          n.natAbs < 10 ^ 4300 ∧ ∃ i, request = .eraseVersion i n ∧ i.IsDescribed event.before ∧ maxVersion < n) ∧
        (event.result = .error .unwritable ↔
          request.identity.IsDescribed event.before ∧ 10 ^ 4300 ≤ n.natAbs) ∧
        ((∃ reason, event.result = .error (.invalid reason)) ∨ event.result = .error .unwritable ∨
          ∃ what, event.result = .error (.missing what))) := by
  subst hevent
  obtain ⟨s, -, hs, hholds⟩ := exists_trail calls Orderly.empty hnew.holds
  refine ⟨fun hi => ?_, fun n hversion hn => ⟨?_, fun hstruck => ?_⟩⟩
  · obtain ⟨⟨reason, hresult, -⟩, hafter⟩ := Call.refused_of_not_fits ⟨request, script⟩ hi (afterCalls calls store)
    exact ⟨⟨reason, hresult⟩, hafter⟩
  · obtain ⟨t, hleads⟩ := (Call.mk request script).exists_leads hs hholds
    obtain rfl := hleads.step.eq_of_unnumbered hs hversion hn
    rw [hleads.after.rows_eq, hleads.before.rows_eq]
  · have hmisses := Request.misses_of_unnumbered hs hholds hversion hn
    have hdecided : Decided Table.Calm request (afterCalls calls store)
        (Call.event ⟨request, script⟩ (afterCalls calls store)).result :=
      Call.decided_of_not_struck hs hholds hstruck
    obtain ⟨hinvalid, hunwritable, hends⟩ := hdecided.of_misses hmisses
    refine ⟨?_, hunwritable.trans (Request.unwritable_iff_of_version hversion), hends⟩
    rw [hinvalid, Request.refused_iff_of_version hversion, Request.unwritable_iff_of_version hversion]
    constructor
    · rintro ⟨hi | ⟨i, rfl, hd, hmax⟩, hwritable⟩
      · exact .inl hi
      · exact .inr ⟨Nat.lt_of_not_le fun hlong => hwritable ⟨hd, hlong⟩, i, rfl, hd, hmax⟩
    · rintro (hi | ⟨hshort, herasure⟩)
      · exact ⟨.inl hi, fun h => not_isDescribed_of_not_fits hholds hi h.1⟩
      · exact ⟨.inr herasure, fun h => Nat.not_le.2 hshort h.2⟩

namespace Sample

/-- The least number that is too great for a row. -/
def tooGreat : Int := 2 ^ 64

theorem not_numbered_tooGreat : ¬(0 ≤ tooGreat ∧ tooGreat ≤ maxVersion) := by decide +kernel

end Sample

/-- A name that is too long is refused before a failure can strike. A number that is too great is refused by an erasure,
no entry is found at it, and one that is too long besides cannot be written. -/
theorem unkeyed_refused_orders :
    (∃ reason, (Call.event ⟨.numbers Sample.wordy, [some ⟨"disk full"⟩]⟩
      (afterCalls Sample.uploaded (.memory .empty))).result = .error (.invalid reason)) ∧
    (∃ reason, ((Request.eraseVersion Sample.orders Sample.tooGreat).calm.event
      (afterCalls Sample.uploaded (.memory .empty))).result = .error (.invalid reason)) ∧
    (∃ what, ((Request.entry Sample.orders (some Sample.tooGreat)).calm.event
      (afterCalls Sample.uploaded (.memory .empty))).result = .error (.missing what)) ∧
    ((Request.entry Sample.orders (some Sample.endless)).calm.event
      (afterCalls Sample.uploaded (.memory .empty))).result = .error .unwritable := by
  have hdecided := fun request n hversion hn =>
    ((unkeyed_refused .memory Sample.uploaded request [] rfl).2 n hversion hn).2 (request.not_struck_calm _)
  refine ⟨?_, ?_, ?_, ?_⟩
  · exact ((unkeyed_refused .memory Sample.uploaded (.numbers Sample.wordy) [some ⟨"disk full"⟩] rfl).1
      Sample.not_fits_wordy).1
  · obtain ⟨hrefused, -⟩ :=
      hdecided (.eraseVersion Sample.orders Sample.tooGreat) _ rfl Sample.not_numbered_tooGreat
    exact hrefused.2 (.inr ⟨by decide +kernel, _, rfl, by decide +kernel, by decide +kernel⟩)
  · obtain ⟨hrefused, hlong, hends⟩ :=
      hdecided (.entry Sample.orders (some Sample.tooGreat)) _ rfl Sample.not_numbered_tooGreat
    rcases hends with hinvalid | hunwritable | hmissing
    · rcases hrefused.1 hinvalid with hfits | ⟨-, i, hrequest, -⟩
      · exact absurd (by decide) hfits
      · cases hrequest
    · exact absurd (hlong.1 hunwritable).2 (by decide +kernel)
    · exact hmissing
  · obtain ⟨-, hlong, -⟩ := hdecided (.entry Sample.orders (some Sample.endless)) _ rfl
      (unnumbered_of_not_isWritable Sample.not_isWritable_endless)
    exact hlong.2 ⟨by decide +kernel, not_isWritable_iff.1 Sample.not_isWritable_endless⟩

/-- **Not every number that no row can have is refused**, though no failure strikes: an entry at one is missing. -/
theorem not_unkeyed_refused : ¬∀ (calls : List Call) (request : Request) (n : Int), request.version? = some n →
    ¬(0 ≤ n ∧ n ≤ maxVersion) →
      ∃ reason, (request.calm.event (afterCalls calls (.memory .empty))).result = .error (.invalid reason) := by
  intro h
  have hversion : (Request.entry Sample.orders (some Sample.tooGreat)).version? = some Sample.tooGreat := rfl
  have hinvalid := h Sample.uploaded _ _ hversion Sample.not_numbered_tooGreat
  obtain ⟨s, -, hs, hholds⟩ := exists_trail Sample.uploaded Orderly.empty Store.IsNew.memory.holds
  have hmisses := Request.misses_of_unnumbered hs hholds hversion Sample.not_numbered_tooGreat
  have hdecided : Decided Table.Calm (.entry Sample.orders (some Sample.tooGreat)) _ _ :=
    Call.decided_of_not_struck hs hholds ((Request.entry Sample.orders (some Sample.tooGreat)).not_struck_calm _)
  -- the identity fits, and an entry is no erasure, so there is no reason to refuse it
  obtain ⟨hrefused, -⟩ := (hdecided.of_misses hmisses).1.1 hinvalid
  rcases (Request.refused_iff_of_version hversion).1 hrefused with hfits | ⟨i, hrequest, -⟩
  · exact hfits (by decide)
  · cases hrequest

end Schemata.Catalog

import Schemata.Proofs.Catalog.Run

/-!
# The registry answers as a ledger

A `Ledger` is what a registry is meant to be: for each identity either nothing or an `Account` with its description, the
last number that was given out and a finite map from numbers to contents. Requests are answered from it at once
(`Ledger.answer`). An answer that names a number has to be put into words, which is not done with a number of more than
4300 digits (`inWords`).

A ledger tracks a table's contents when each account shows the rows of its identity and an identity without an account
has no rows (`Ledger.Tracks`). Each step without failures gives the ledger's answer in words and is tracked by the
ledger after it (`Ledger.Tracks.answer`); so every run without failures gives the ledger's answers in words
(`history_eq_answers`), and not always those answers (`not_history_eq_answers`).
-/

namespace Schemata.Catalog

open Table (Contents Store Trouble)

/-! ## Ledgers -/

/-- What is known of one identity. -/
structure Account where
  name : String
  description : String
  format : Format
  /-- The last number that was given out. -/
  last : Nat
  versions : Std.ExtTreeMap Nat Bytes

namespace Account

/-- The content under a number. -/
def content? (a : Account) (n : Int) : Option Bytes := if 0 ≤ n then a.versions[n.toNat]? else none

/-- The numbers in use, the lowest first. -/
def numbers (a : Account) : List Int := a.versions.keys.map (↑)

/-- The version that is asked for: the one with the number, or the one with the highest number. -/
def select (a : Account) (i : Identity) : Option Int → Except Missing Version
  | some n =>
    match a.content? n with
    | some content => .ok ⟨n.toNat, content⟩
    | none => .error (.version i n)
  | none =>
    match a.versions.toList.getLast? with
    | some (n, content) => .ok ⟨n, content⟩
    | none => .error (.versions i)

/-- The entry for a version. -/
def entry (a : Account) (i : Identity) (version : Version) : Entry :=
  ⟨i, .string a.name, .string a.description, a.format, version.number, version.content, a.numbers⟩

end Account

/-- What is wrong with the texts of a description: the first one that is empty. -/
def Draft.fault? (draft : Draft) : Option Invalid :=
  ([(draft.identity.label, .noLabel), (draft.name, .noName), (draft.description, .noDescription)].find?
    (·.1 = "")).map (·.2)

/-- The accounts of all identities. -/
abbrev Ledger := Identity → Option Account

namespace Ledger

/-- No accounts. -/
def empty : Ledger := fun _ => none

/-- Gives an identity an account, or none. -/
def set (l : Ledger) (i : Identity) (a : Option Account) : Ledger := fun j => if j = i then a else l j

/-- The answer to a request that an account is needed for. -/
def answerWith (l : Ledger) (i : Identity) (answer : Account → Except Failure Reply × Ledger) :
    Except Failure Reply × Ledger :=
  match l i with
  | some a => answer a
  | none => (.error (.missing (.schema i)), l)

/-- The answer to a request, and the ledger after it. -/
def answer (l : Ledger) : Request → Except Failure Reply × Ledger
  | .describe draft =>
    match draft.fault?, draft.format with
    | some reason, _ => (.error (.invalid reason), l)
    | none, .unknown tag => (.error (.invalid (.unknownFormat tag)), l)
    | none, .known format =>
      let a := (l draft.identity).getD ⟨draft.name, draft.description, format, 0, ∅⟩
      (.ok .done, l.set draft.identity
        (some { a with name := draft.name, description := draft.description, format := format }))
  | .append _ none | .append _ (some []) => (.error (.invalid .noContent), l)
  | .append i (some (first :: rest)) => l.answerWith i fun a =>
    if a.last = 2 ^ 64 - 1 then (.error (.invalid (.versionOutOfRange (2 ^ 64))), l)
    else (.ok (.number (a.last + 1)), l.set i
      (some { a with last := a.last + 1, versions := a.versions.insert (a.last + 1) (first :: rest) }))
  | .entry i number => l.answerWith i fun a =>
    (((a.select i number).mapError .missing).map fun version => .entry (a.entry i version), l)
  | .numbers i => l.answerWith i fun a => (.ok (.numbers a.numbers), l)
  | .contains i => (.ok (.answer (l i).isSome), l)
  | .eraseVersion i n => l.answerWith i fun a =>
    match a.content? n with
    | some _ => (.ok .done, l.set i (some { a with versions := a.versions.erase n.toNat }))
    | none =>
      if n < 2 ^ 64 then (.error (.missing (.version i n)), l)
      else (.error (.invalid (.versionOutOfRange n)), l)
  | .erase i => (.ok .done, l.set i none)

/-- The answers to requests, one after the other. -/
def answers : Ledger → List Request → List (Except Failure Reply)
  | _, [] => []
  | l, request :: rest => (l.answer request).1 :: (l.answer request).2.answers rest

end Ledger

/-- An answer in words: one that names a number of more than 4300 digits cannot be put so. -/
def inWords : Except Failure Reply → Except Failure Reply
  | .error (.missing (.version i n)) =>
    .error (if n.natAbs < 10 ^ 4300 then .missing (.version i n) else .unwritable)
  | .error (.invalid (.versionOutOfRange n)) =>
    .error (if n.natAbs < 10 ^ 4300 then .invalid (.versionOutOfRange n) else .unwritable)
  | answer => answer

/-! ## What a ledger tracks -/

/-- An account shows the rows of its identity. -/
structure Account.Shows (a : Account) (i : Identity) (s : Contents) : Prop where
  descriptor : i.row? s .descriptor = some (Draft.descriptor ⟨i, a.name, a.description, .known a.format⟩ a.format).row
  counter : i.counterIn s = a.last
  version : ∀ n : Nat, i.row? s (.version n) = a.versions[n]?
  counted : ∀ n : Nat, i.row? s (.version n) ≠ none → n ≤ a.last

/-- A ledger tracks contents. -/
structure Ledger.Tracks (l : Ledger) (s : Contents) : Prop where
  orderly : Orderly s
  /-- Without an account there are no rows. -/
  absent : ∀ i, l i = none → ∀ row, i.row? s row = none
  shows : ∀ i a, l i = some a → a.Shows i s

variable {l : Ledger} {a : Account} {i : Identity} {s t : Contents}

/-! ## Reading an account -/

namespace Account.Shows

variable (h : a.Shows i s) (hs : Orderly s) (hi : i.Fits)
include h

theorem of_rows (hrows : ∀ row, i.row? t row = i.row? s row) : a.Shows i t where
  descriptor := by rw [hrows, h.descriptor]
  counter := by rw [counterIn_of_row?_eq (hrows _), h.counter]
  version n := by rw [hrows, h.version]
  counted n hn := h.counted n (by rwa [hrows] at hn)

theorem describedIn : i.DescribedIn s := by
  rw [Identity.DescribedIn, h.descriptor]
  simp

theorem descriptorIn_eq : i.descriptorIn s = some ⟨i, .string a.name, .string a.description, a.format⟩ := by
  rw [Identity.descriptorIn, h.descriptor, Option.bind_some, Descriptor.ofRow_row]
  rfl

include hs

theorem content?_eq (n : Int) : i.row? s (.version n) = a.content? n := by
  rw [Account.content?]
  split
  · rw [← h.version, Int.toNat_of_nonneg ‹_›]
  · cases hrow : i.row? s (.version n) with
    | none => rfl
    | some content =>
      obtain ⟨m, rfl, -, -, -⟩ := hs.number_of_row? hrow
      omega

include hi

theorem latestIn_eq : i.latestIn s = a.last := by
  apply Nat.le_antisymm
  · rw [hs.latestIn_le_iff hi, h.counter]
    exact ⟨Nat.le_refl _, h.counted⟩
  · rw [← h.counter]
    exact hs.counterIn_le_latestIn hi

/-- The versions of the rows are those of the account, in the same order. -/
theorem versionsIn_eq :
    (i.versionsIn s).map (fun version => (version.number, version.content)) = a.versions.toList := by
  apply Table.eq_of_ascending_of_mem_iff
  · rw [List.pairwise_map]
    exact hs.ascending_versionsIn hi
  · exact a.versions.ordered_keys_toList.imp Nat.compare_eq_lt.1
  · rintro ⟨n, content⟩
    rw [Std.ExtTreeMap.mem_toList_iff_getElem?_eq_some, ← h.version, ← hs.mem_versionsIn hi, List.mem_map]
    constructor
    · rintro ⟨version, hmem, heq⟩
      cases heq
      exact hmem
    · intro hmem
      exact ⟨_, hmem, rfl⟩

theorem numbers_eq : (i.versionsIn s).map (fun version => (version.number : Int)) = a.numbers := by
  rw [Account.numbers, ← Std.ExtTreeMap.map_fst_toList_eq_keys, ← h.versionsIn_eq hs hi, List.map_map, List.map_map]
  rfl

theorem select_eq (number : Option Int) : selectVersion i number (i.versionsIn s) = a.select i number := by
  cases number with
  | some n =>
    rw [hs.selectVersion_some hi, h.content?_eq hs]
    cases hcontent : a.content? n with
    | none => simp [Account.select, hcontent]
    | some content => simp [Account.select, hcontent]
  | none =>
    have hlast := congrArg List.getLast? (h.versionsIn_eq hs hi)
    rw [List.getLast?_map] at hlast
    cases hversion : (i.versionsIn s).getLast? with
    | none => simp [selectVersion, Account.select, ← hlast, hversion]
    | some version => simp [selectVersion, Account.select, ← hlast, hversion]

end Account.Shows

/-! ## Writing an account -/

namespace Account.Shows

/-- A first description makes an account without versions. -/
theorem of_described {draft : Draft} {format : Format} (hs : Orderly s) (hi : draft.identity.Fits) :
    Shows ⟨draft.name, draft.description, format, 0, ∅⟩ draft.identity
      (draft.identity.putRow (draft.identity.eraseRows (draft.identity.leftovers s) s) .descriptor
        (draft.descriptor format).row) := by
  constructor
  · rw [Identity.row?_putDescriptor hi, if_pos rfl]
    rfl
  · rw [Identity.counterIn, Identity.row?_putDescriptor hi, if_neg (by simp), hs.row?_cleared (by simp)]
    rfl
  · intro n
    rw [Identity.row?_putDescriptor hi, if_neg (by simp), hs.row?_cleared (by simp), Std.ExtTreeMap.getElem?_empty]
  · intro n hn
    rw [Identity.row?_putDescriptor hi, if_neg (by simp), hs.row?_cleared (by simp)] at hn
    exact absurd rfl hn

/-- A later description changes what describes the account. -/
theorem of_redescribed {draft : Draft} {format : Format} (h : a.Shows draft.identity s) (hi : draft.identity.Fits) :
    Shows { a with name := draft.name, description := draft.description, format := format } draft.identity
      (draft.identity.putRow s .descriptor (draft.descriptor format).row) := by
  constructor
  · rw [Identity.row?_putDescriptor hi, if_pos rfl]
    rfl
  · exact (counterIn_of_row?_eq (by rw [Identity.row?_putDescriptor hi, if_neg (by simp)])).trans h.counter
  · intro n
    rw [Identity.row?_putDescriptor hi, if_neg (by simp), h.version]
  · intro n hn
    rw [Identity.row?_putDescriptor hi, if_neg (by simp)] at hn
    exact h.counted n hn

/-- An append adds the version after the last number. -/
theorem of_appended {content : Bytes} (h : a.Shows i s) (hs : Orderly s) (hi : i.Fits)
    (hlatest : i.latestIn s < maxVersion) :
    Shows { a with last := a.last + 1, versions := a.versions.insert (a.last + 1) content } i
      (i.appendedIn s content) := by
  have hlast := h.latestIn_eq hs hi
  constructor
  · rw [row?_appendedIn hi hlatest, if_neg (by simp), if_neg (by simp), h.descriptor]
  · rw [counterIn_appendedIn hi hlatest, hlast]
  · intro n
    rw [row?_appendedIn hi hlatest, if_neg (by simp), hlast, Std.ExtTreeMap.getElem?_insert, h.version]
    congr 1
    simp only [true_and, RowName.version.injEq, Int.natCast_inj, Nat.compare_eq_eq, eq_iff_iff]
    exact eq_comm
  · intro n hn
    rw [row?_appendedIn hi hlatest, if_neg (by simp)] at hn
    split at hn
    · rename_i he
      have hnumber := Int.ofNat.inj (RowName.version.inj he.2)
      exact Nat.le_of_eq (hnumber.trans (congrArg (· + 1) hlast))
    · exact Nat.le_succ_of_le (h.counted n hn)

/-- An erasure takes a version out. -/
theorem of_versionErased {n : Int} (h : a.Shows i s) (hn : 0 ≤ n) :
    Shows { a with versions := a.versions.erase n.toNat } i (i.eraseRow s (.version n)) := by
  constructor
  · rw [Identity.row?_eraseRow, if_neg (by simp), h.descriptor]
  · rw [counterIn_eraseRow_version, h.counter]
  · intro m
    rw [Identity.row?_eraseRow, h.version, Std.ExtTreeMap.getElem?_erase]
    congr 1
    simp only [true_and, RowName.version.injEq, Nat.compare_eq_eq, eq_iff_iff]
    omega
  · intro m hm
    rw [Identity.row?_eraseRow] at hm
    split at hm
    · exact absurd rfl hm
    · exact h.counted m hm

end Account.Shows

/-! ## Answering from a ledger -/

/-- What is checked of a draft is that its texts are there and then its format. -/
theorem Draft.check_eq (draft : Draft) : draft.check =
    match draft.fault?, draft.format with
    | some reason, _ => .error reason
    | none, .unknown tag => .error (.unknownFormat tag)
    | none, .known format => .ok format := by
  rw [check, fault?]
  by_cases hlabel : draft.identity.label = ""
  · simp [hlabel]
  by_cases hname : draft.name = ""
  · simp [hlabel, hname]
  by_cases hdescription : draft.description = ""
  · simp [hlabel, hname, hdescription]
  · simp only [String.isEmpty_iff, hlabel, hname, hdescription, ↓reduceIte, List.find?, decide_false, Option.map_none]
    cases draft.format <;> rfl

/-- A draft that passes its check has its texts and the format. -/
theorem Draft.of_check {draft : Draft} {format : Format} (h : draft.check = .ok format) :
    draft.fault? = none ∧ draft.format = .known format := by
  rw [draft.check_eq] at h
  split at h
  · cases h
  · cases h
  · rename_i hfault hformat
    exact ⟨hfault, hformat.trans (congrArg _ (Except.ok.inj h))⟩

@[simp] theorem inWords_ok (reply : Reply) : inWords (.ok reply) = .ok reply := rfl

/-- A failure in words is the one that is raised for it. -/
theorem inWords_error (failure : Failure) : inWords (.error failure) = .error failure.worded := by
  have hnone (h : failure.number? = none) :
      (.error failure : Except Failure Reply) = .error failure.worded := by
    rw [Failure.worded_of_none h]
  have hsome (n : Int) (h : failure.number? = some n) :
      (.error (if n.natAbs < 10 ^ 4300 then failure else .unwritable) : Except Failure Reply) =
        .error failure.worded := by
    rw [Failure.worded_of_number h]
    simp only [Text.isWritable_iff, Text.maxDigits]
  cases failure with
  | missing what =>
    cases what with
    | version i n => exact hsome n rfl
    | _ => exact hnone rfl
  | invalid reason =>
    cases reason with
    | versionOutOfRange n => exact hsome n rfl
    | _ => exact hnone rfl
  | _ => exact hnone rfl

namespace Ledger

/-- Inputs that are refused are answered so. -/
theorem answer_of_refused {request : Request} {reason : Invalid} (hcheck : request.check = .error reason) :
    l.answer request = (.error (.invalid reason), l) := by
  cases request with
  | describe draft =>
    rw [Request.check, draft.check_eq] at hcheck
    rw [answer]
    cases hfault : draft.fault? with
    | some reason' =>
      rw [hfault] at hcheck
      cases hcheck
      rfl
    | none =>
      rw [hfault] at hcheck
      cases hformat : draft.format with
      | unknown tag =>
        rw [hformat] at hcheck
        cases hcheck
        rfl
      | known format =>
        rw [hformat] at hcheck
        cases hcheck
  | append i content =>
    rcases content with _ | _ | ⟨first, rest⟩
    · cases hcheck
      rfl
    · cases hcheck
      rfl
    · cases hcheck
  | _ => cases hcheck

/-- A request that an account is needed for is answered from it, if there is one. -/
theorem answer_of_none {request : Request} (hcheck : request.check = .ok ()) (hneeds : request.needsDescriptor)
    (hnone : l request.identity = none) : l.answer request = (.error (.missing (.schema request.identity)), l) := by
  cases request with
  | append i content =>
    obtain ⟨first, rest, rfl⟩ := exists_cons_of_check hcheck
    rw [answer, answerWith, show l i = none from hnone]
    rfl
  | entry i number | numbers i | eraseVersion i number =>
    rw [answer, answerWith, show l i = none from hnone]
    rfl
  | describe draft | contains i | erase i => exact hneeds.elim

end Ledger

namespace Ledger.Tracks

variable (h : l.Tracks s)
include h

omit h in
theorem empty : Ledger.empty.Tracks .empty where
  orderly := .empty
  absent _ _ _ := by
    rw [Identity.row?]
    split <;> rfl
  shows _ _ ha := by cases ha

theorem exists_account (hd : i.DescribedIn s) : ∃ a, l i = some a ∧ a.Shows i s := by
  cases ha : l i with
  | none => exact absurd (h.absent i ha _) hd
  | some a => exact ⟨a, rfl, h.shows i a ha⟩

theorem eq_none (hd : ¬i.DescribedIn s) : l i = none := by
  cases ha : l i with
  | none => rfl
  | some a => exact absurd (h.shows i a ha).describedIn hd

theorem set {account : Option Account} (ht : Orderly t) (hother : ∀ j, j ≠ i → ∀ row, j.row? t row = j.row? s row)
    (hnone : account = none → ∀ row, i.row? t row = none) (hsome : ∀ a, account = some a → a.Shows i t) :
    (l.set i account).Tracks t where
  orderly := ht
  absent j hj row := by
    rw [Ledger.set] at hj
    split at hj
    · rename_i he
      rw [he]
      exact hnone hj row
    · rename_i he
      rw [hother j he]
      exact h.absent j hj row
  shows j a hj := by
    rw [Ledger.set] at hj
    split at hj
    · rename_i he
      rw [he]
      exact hsome a hj
    · rename_i he
      exact (h.shows j a hj).of_rows (hother j he)

/-- **A step without failures gives the ledger's answer in words, and the ledger after it tracks what it leaves.** -/
theorem answer {may : Trouble → Prop} {request : Request} {result : Except Failure Reply}
    (hi : request.identity.Fits) (hcalm : ∀ trouble, ¬may trouble) (hstep : Step may s request result t) :
    result = inWords (l.answer request).1 ∧ (l.answer request).2.Tracks t := by
  have hs := h.orderly
  have ht := hstep.orderly hs
  have hother : ∀ j, j ≠ request.identity → ∀ row, j.row? t row = j.row? s row := fun j hj row => hstep.row?_of_ne hj
  cases hstep with
  | refused hcheck =>
    rw [answer_of_refused hcheck, inWords_error, Request.worded_of_check_error hcheck]
    exact ⟨rfl, h⟩
  | unfit hcheck hstem =>
    rw [Identity.stem_of_fits hi] at hstem
    cases hstem
  | failed hm => exact absurd hm (hcalm _)
  | absent hcheck hneeds hi hd =>
    rw [answer_of_none hcheck hneeds (h.eq_none hd)]
    exact ⟨rfl, h⟩
  | halfCleared hm => exact absurd hm (hcalm _)
  | described hcheck hi hd =>
    obtain ⟨hfault, hformat⟩ := Draft.of_check hcheck
    rw [Ledger.answer, hfault, hformat, h.eq_none hd]
    exact ⟨rfl, h.set ht hother nofun fun a ha => Option.some.inj ha ▸ .of_described hs hi⟩
  | redescribed hcheck hi hd =>
    obtain ⟨a, ha, hshows⟩ := h.exists_account hd
    obtain ⟨hfault, hformat⟩ := Draft.of_check hcheck
    rw [Ledger.answer, hfault, hformat, ha]
    exact ⟨rfl, h.set ht hother nofun fun b hb => Option.some.inj hb ▸ hshows.of_redescribed hi⟩
  | full hcheck hi hd hlatest =>
    obtain ⟨a, ha, hshows⟩ := h.exists_account hd
    obtain ⟨first, rest, rfl⟩ := exists_cons_of_check hcheck
    have hlast : a.last = 2 ^ 64 - 1 := (hshows.latestIn_eq hs hi).symm.trans hlatest
    rw [Ledger.answer, Ledger.answerWith, ha]
    simp only [if_pos hlast, inWords_error]
    exact ⟨congrArg _ worded_beyond_maxVersion.symm, h⟩
  | halfAppended hm => exact absurd hm (hcalm _)
  | appended hi hd hlatest =>
    obtain ⟨a, ha, hshows⟩ := h.exists_account hd
    have hlast := hshows.latestIn_eq hs hi
    have hroom : a.last ≠ 2 ^ 64 - 1 := Nat.ne_of_lt (hlast ▸ hlatest)
    rw [Ledger.answer, Ledger.answerWith, ha]
    simp only [if_neg hroom]
    refine ⟨by rw [hlast, inWords_ok], h.set ht hother nofun fun b hb => ?_⟩
    exact Option.some.inj hb ▸ hshows.of_appended hs hi hlatest
  | unselected hi hd hselect hfailure =>
    obtain ⟨a, ha, hshows⟩ := h.exists_account hd
    rw [hshows.select_eq hs hi] at hselect
    rw [Ledger.answer, Ledger.answerWith, ha, hfailure, ← inWords_error]
    simp only [hselect]
    exact ⟨rfl, h⟩
  | told hi hd hselect =>
    obtain ⟨a, ha, hshows⟩ := h.exists_account (hs.describedIn_of hd)
    rw [hshows.select_eq hs hi] at hselect
    rw [hshows.descriptorIn_eq] at hd
    cases hd
    rw [Ledger.answer, Ledger.answerWith, ha]
    simp only [hselect, Descriptor.entry, hshows.numbers_eq hs hi]
    exact ⟨rfl, h⟩
  | listed hi hd =>
    obtain ⟨a, ha, hshows⟩ := h.exists_account hd
    rw [Ledger.answer, Ledger.answerWith, ha, hshows.numbers_eq hs hi]
    exact ⟨rfl, h⟩
  | @answered i hi =>
    refine ⟨?_, h⟩
    rw [Ledger.answer]
    cases ha : l i with
    | none =>
      rw [h.absent i ha]
      rfl
    | some a =>
      rw [(h.shows i a ha).descriptor]
      rfl
  | unversioned hi hd hmax hrow hfailure =>
    obtain ⟨a, ha, hshows⟩ := h.exists_account hd
    rw [hshows.content?_eq hs] at hrow
    rw [Ledger.answer, Ledger.answerWith, ha, hfailure, ← inWords_error]
    simp only [hrow, if_pos (le_maxVersion_iff.1 hmax)]
    exact ⟨trivial, h⟩
  | @beyond i failure number hi hd hmax hfailure =>
    obtain ⟨a, ha, hshows⟩ := h.exists_account hd
    have hrow : i.row? s (.version number) = none := hs.row?_version_of_gt hmax
    rw [hshows.content?_eq hs] at hrow
    rw [Ledger.answer, Ledger.answerWith, ha, hfailure, ← inWords_error]
    simp only [hrow, if_neg fun hlt => Int.not_le.2 hmax (le_maxVersion_iff.2 hlt)]
    exact ⟨trivial, h⟩
  | @versionErased i number hi hd hrow =>
    obtain ⟨a, ha, hshows⟩ := h.exists_account hd
    obtain ⟨content, hcontent⟩ := Option.ne_none_iff_exists'.1 hrow
    obtain ⟨n, rfl, -, -, -⟩ := hs.number_of_row? hcontent
    rw [hshows.content?_eq hs] at hcontent
    rw [Ledger.answer, Ledger.answerWith, ha]
    simp only [hcontent]
    exact ⟨rfl, h.set ht hother nofun fun b hb =>
      Option.some.inj hb ▸ hshows.of_versionErased (Int.natCast_nonneg n)⟩
  | halfErased hm => exact absurd hm (hcalm _)
  | @erased i hi =>
    exact ⟨rfl, h.set ht hother (fun _ row => hs.row?_erased) nofun⟩

/-- **Every run without failures gives the ledger's answers in words.** -/
theorem history_eq {store : Store} (hholds : store.Holds s) {requests : List Request}
    (hfits : ∀ request ∈ requests, request.identity.Fits) :
    (history (requests.map Request.calm) store).map (·.result) = (l.answers requests).map inWords := by
  induction requests generalizing l s store with
  | nil => rfl
  | cons request rest ih =>
    obtain ⟨hi, hrest⟩ := List.forall_mem_cons.1 hfits
    obtain ⟨t, hleads⟩ := request.calm.exists_leads h.orderly hholds
    obtain ⟨hresult, ht⟩ := h.answer hi (Request.calm_calm _) hleads.step
    rw [List.map_cons, history, List.map_cons, answers, List.map_cons, ih ht hleads.after hrest, hresult]

end Ledger.Tracks

/-! ## Runs -/

/-- **The registry answers as a ledger.** From a new table and without failures, requests about identities that fit into
keys are answered, one after the other, as a ledger without accounts answers them. An answer that names a number is put
into words, and a number of more than 4300 digits cannot be. -/
theorem history_eq_answers {store : Store} (hnew : store.IsNew) (requests : List Request)
    (hfits : ∀ request ∈ requests, request.identity.Fits) :
    (history (requests.map Request.calm) store).map (·.result) = (Ledger.empty.answers requests).map inWords :=
  Ledger.Tracks.empty.history_eq hnew.holds hfits

namespace Sample

/-- A description without a text. -/
def nameless : Draft := ⟨orders, "", "Order events", .known .avro⟩

/-- Requests of all seven kinds, one of them for a number that is too long to be written. -/
def requests : List Request :=
  [.describe nameless, .describe draft, .append orders (some [1]), .append orders (some [2]), .eraseVersion orders 2,
    .append orders (some [3]), .entry orders none, .entry orders (some 2), .entry orders (some endless),
    .numbers orders, .erase orders, .contains orders]

end Sample

theorem history_eq_answers_requests :
    (∀ request ∈ Sample.requests, request.identity.Fits) ∧
      (history (Sample.requests.map Request.calm) (.memory .empty)).map (·.result) =
        (Ledger.empty.answers Sample.requests).map inWords := by
  have hfits : ∀ request ∈ Sample.requests, request.identity.Fits := by decide +kernel
  exact ⟨hfits, history_eq_answers .memory Sample.requests hfits⟩

/-- **The registry does not always give the ledger's answers**: it does not say that a version is missing whose number
is too long. -/
theorem not_history_eq_answers : ¬∀ requests : List Request, (∀ request ∈ requests, request.identity.Fits) →
    (history (requests.map Request.calm) (.memory .empty)).map (·.result) = Ledger.empty.answers requests := by
  intro h
  have hfits : ∀ request ∈ [Request.describe Sample.draft, .entry Sample.orders (some Sample.endless)],
      request.identity.Fits := by
    simp only [List.forall_mem_cons, List.not_mem_nil, false_implies, implies_true, and_true]
    exact ⟨by decide +kernel, by decide +kernel⟩
  have hledger : ∀ n : Int, Ledger.empty.answers [.describe Sample.draft, .entry Sample.orders (some n)] =
      [.ok .done, .error (.missing (.version Sample.orders n))] := by
    intro n
    let a : Account := ⟨"Orders", "Order events", .avro, 0, ∅⟩
    have hdescribe : Ledger.empty.answer (.describe Sample.draft) =
        (.ok .done, Ledger.empty.set Sample.orders (some a)) := by
      obtain ⟨hfault, hformat⟩ := Draft.of_check (show Sample.draft.check = .ok .avro by rfl)
      rw [Ledger.answer, hfault, hformat]
      rfl
    have hcontent : a.content? n = none := by simp [a, Account.content?]
    have hselect : a.select Sample.orders (some n) = .error (.version Sample.orders n) := by
      rw [Account.select, hcontent]
    have hset : Ledger.empty.set Sample.orders (some a) Sample.orders = some a := if_pos rfl
    rw [Ledger.answers, hdescribe, Ledger.answers, Ledger.answer, Ledger.answerWith]
    simp only [hset, hselect]
    rfl
  have hanswers := (Ledger.Tracks.empty.history_eq Table.Store.IsNew.memory.holds hfits).symm.trans (h _ hfits)
  rw [hledger, List.map_cons, List.map_cons, inWords_error, Failure.worded_of_number rfl,
    if_neg (Bool.eq_false_iff.1 Sample.not_isWritable_endless)] at hanswers
  cases hanswers

end Schemata.Catalog

import Schemata.Proofs.Catalog.Ledger

/-!
# What a ledger knows of a reached table

A ledger goes through requests one after the other (`Ledger.after`); a request about an identity that does not fit into
keys is refused and changes nothing (`Step.eq_of_not_fits`). So the ledger after any requests tracks what a table holds
after the same requests without failures (`Ledger.Tracks.after`). Its accounts are those of identities that have a
descriptor (`fits_of_account`), and list their numbers in ascending order (`pairwise_numbers`).
-/

namespace Schemata.Catalog

open Table (Contents Store Trouble)

/-- The ledger after requests. One about an identity that does not fit into keys changes nothing. -/
def Ledger.after (l : Ledger) : List Request → Ledger
  | [] => l
  | request :: rest => (if request.identity.Fits then (l.answer request).2 else l).after rest

variable {l : Ledger} {a : Account} {i : Identity} {s t : Contents} {n : Int}

/-- Without failures a request about an identity that does not fit leaves everything as it is. -/
theorem Step.eq_of_not_fits {may : Trouble → Prop} {request : Request} {result : Except Failure Reply}
    (h : Step may s request result t) (hcalm : ∀ trouble, ¬may trouble) (hi : ¬request.identity.Fits) : t = s := by
  cases h with
  | refused => rfl
  | unfit => rfl
  | failed hm => exact absurd hm (hcalm _)
  | absent => rfl
  | halfCleared hm => exact absurd hm (hcalm _)
  | halfAppended hm => exact absurd hm (hcalm _)
  | halfErased hm => exact absurd hm (hcalm _)
  | described _ hfits => exact absurd hfits hi
  | redescribed _ hfits => exact absurd hfits hi
  | appended hfits => exact absurd hfits hi
  | versionErased hfits => exact absurd hfits hi
  | erased hfits => exact absurd hfits hi
  | _ => rfl

/-- The table after requests, nothing failing. -/
def afterRequests (requests : List Request) (store : Store) : Store := afterCalls (requests.map Request.calm) store

/-- **The ledger after requests tracks the table after them.** -/
theorem Ledger.Tracks.after (h : l.Tracks s) {store : Store} (hholds : store.Holds s) (requests : List Request) :
    ∃ t, (afterRequests requests store).Holds t ∧ (l.after requests).Tracks t := by
  unfold afterRequests
  induction requests generalizing l s store with
  | nil => exact ⟨s, hholds, h⟩
  | cons request rest ih =>
    obtain ⟨t, hleads⟩ := request.calm.exists_leads h.orderly hholds
    have hcalm := Request.calm_calm request
    rw [List.map_cons, afterCalls, Ledger.after]
    split
    · rename_i hi
      exact ih (h.answer hi hcalm hleads.step).2 hleads.after
    · rename_i hi
      have hsame := hleads.step.eq_of_not_fits hcalm hi
      exact ih h (hsame ▸ hleads.after)

/-- An identity with an account fits into keys. -/
theorem Ledger.Tracks.fits_of_account (h : l.Tracks s) (ha : l i = some a) : i.Fits :=
  fits_of_describedIn (h.shows i a ha).describedIn

/-! ## Numbers in ascending order -/

/-- Where no element is repeated, none is taken out. -/
theorem eraseReps_of_pairwise {numbers : List Int} (h : numbers.Pairwise (· < ·)) : numbers.eraseReps = numbers := by
  have hloop : ∀ (rest done : List Int) (first : Int), (first :: rest).Pairwise (· < ·) →
      List.eraseRepsBy.loop (· == ·) first rest done = done.reverse ++ first :: rest := by
    intro rest
    induction rest with
    | nil =>
      intro done first _
      simp [List.eraseRepsBy.loop]
    | cons second rest ih =>
      intro done first hpairwise
      have hne : (first == second) = false := by
        simpa using Int.ne_of_lt (List.rel_of_pairwise_cons hpairwise (List.mem_cons_self ..))
      rw [List.eraseRepsBy.loop, hne]
      simp only
      rw [ih _ _ hpairwise.of_cons]
      simp
  cases numbers with
  | nil => rfl
  | cons first rest => exact hloop rest [] first h

/-- Numbers in ascending order stay as they are. -/
theorem ascending_of_pairwise {numbers : List Int} (h : numbers.Pairwise (· < ·)) : ascending numbers = numbers := by
  have hsorted : numbers.Pairwise fun a b => decide (a ≤ b) = true := h.imp fun hlt => decide_eq_true (Int.le_of_lt hlt)
  rw [ascending, List.mergeSort_of_pairwise hsorted, eraseReps_of_pairwise h]

/-! ## The numbers of an account -/

namespace Account

theorem pairwise_numbers (a : Account) : a.numbers.Pairwise (· < ·) := by
  rw [numbers, List.pairwise_map]
  exact a.versions.ordered_keys.imp fun h => Int.ofNat_lt.2 (Nat.compare_eq_lt.1 h)

theorem content?_natCast (a : Account) (m : Nat) : a.content? m = a.versions[m]? := by
  rw [content?, if_pos (Int.natCast_nonneg m), Int.toNat_natCast]

/-- The numbers are those that have a content. -/
theorem mem_numbers : n ∈ a.numbers ↔ ∃ content, a.content? n = some content := by
  rw [numbers, List.mem_map]
  constructor
  · rintro ⟨m, hm, rfl⟩
    rw [Std.ExtTreeMap.mem_keys, Std.ExtTreeMap.mem_iff_isSome_getElem?, ← content?_natCast] at hm
    exact Option.isSome_iff_exists.1 hm
  · rintro ⟨content, hcontent⟩
    have hn : 0 ≤ n := by
      rw [content?] at hcontent
      split at hcontent
      · assumption
      · cases hcontent
    obtain ⟨m, rfl⟩ := Int.eq_ofNat_of_zero_le hn
    rw [content?_natCast] at hcontent
    refine ⟨m, ?_, rfl⟩
    rw [Std.ExtTreeMap.mem_keys, Std.ExtTreeMap.mem_iff_isSome_getElem?, hcontent]
    rfl

/-- The account after a version is taken out. -/
def without (a : Account) (n : Int) : Account := { a with versions := a.versions.erase n.toNat }

theorem content?_without (hn : 0 ≤ n) (m : Int) : (a.without n).content? m = if m = n then none else a.content? m := by
  rw [content?, content?, without]
  by_cases hm : 0 ≤ m
  · rw [if_pos hm, if_pos hm, Std.ExtTreeMap.getElem?_erase]
    congr 1
    simp only [Nat.compare_eq_eq, eq_iff_iff]
    omega
  · rw [if_neg hm, if_neg hm, ite_self]

/-- Taking a version out takes out its number and no other. -/
theorem numbers_without (hn : 0 ≤ n) : (a.without n).numbers = a.numbers.filter (· ≠ n) := by
  have : Std.Irrefl fun x y : Int => x < y := ⟨Int.lt_irrefl⟩
  have : Std.Antisymm fun x y : Int => x < y := ⟨fun x y hxy hyx => absurd hyx (Int.lt_asymm hxy)⟩
  apply (pairwise_numbers _).eq_of_mem_iff ((pairwise_numbers a).filter _)
  intro m
  rw [mem_numbers, content?_without hn, List.mem_filter, mem_numbers]
  by_cases hm : m = n
  · simp [hm]
  · simp [hm]

end Account

end Schemata.Catalog

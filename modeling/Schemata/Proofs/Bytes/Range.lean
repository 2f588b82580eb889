import Mathlib.Data.List.Induction
import Schemata.Bytes.Successor

/-!
# Starts of strings as ranges of the order

- the end of a start's range, octet by octet (`successor?_cons`), and from the last octet that can be raised
  (`successor?_eq_some_iff`, `successor?_eq_none_iff`);
- a key starts with `p` iff it does not come before `p` and comes before the end of `p`'s range, if there is one
  (`isPrefix_iff_range`);
- the strings that come after all with a start are those from the end of its range on (`isBeyond_iff`), so the end is
  the least of them, and where there is no end there are none (`successor?_exact`).
-/

namespace Schemata.Bytes

/-- Of two different strings one comes before the other. -/
theorem lt_or_eq_or_gt (a b : Bytes) : a < b ∨ a = b ∨ b < a := by grind

theorem ne_of_lt {a b : Bytes} (h : a < b) : a ≠ b := fun e => List.lt_irrefl b (e ▸ h)

/-- Behind the same start the rests are compared. -/
theorem append_lt_append_iff (p : Bytes) {a b : Bytes} : p ++ a < p ++ b ↔ a < b := by
  induction p with
  | nil => rfl
  | cons c r ih => rw [List.cons_append, List.cons_append, List.cons_lt_cons_iff, ih]; simp [UInt8.lt_irrefl]

/-- The range of a longer start ends where the range of its rest does, as long as that has an end. -/
theorem successor?_cons (b : UInt8) (r : Bytes) :
    successor? (b :: r) =
      match successor? r with
      | some stop => some (b :: stop)
      | none => if b = 255 then none else some [b + 1] := by
  unfold successor?
  rw [List.reverse_cons, List.dropWhile_append]
  cases hr : r.reverse.dropWhile (· == 255) with
  | nil => by_cases hb : b = 255 <;> simp [hb]
  | cons last before => simp

/-- **Starts as ranges.** -/
theorem isPrefix_iff_range (p k : Bytes) : p <+: k ↔ ¬k < p ∧ ∀ stop, successor? p = some stop → k < stop := by
  induction p generalizing k with
  | nil => simp
  | cons b r ih =>
    cases k with
    | nil => simp
    | cons c t =>
      rw [List.cons_prefix_cons, ih t, successor?_cons, List.cons_lt_cons_iff]
      cases hr : successor? r with
      | some u =>
        simp only [Option.some.injEq, forall_eq', List.cons_lt_cons_iff]
        grind
      | none =>
        by_cases hb : b = 255
        · simp only [hb, ↓reduceIte, reduceCtorEq, false_implies, implies_true, and_true]
          grind
        · simp only [hb, ↓reduceIte, Option.some.injEq, forall_eq', List.cons_lt_cons_iff, List.not_lt_nil,
            reduceCtorEq, false_implies, implies_true, and_true, and_false, or_false]
          grind

/-! ## Where a range ends -/

/-- The last octet that is not 255 is raised by one, and what stands behind it is dropped. -/
theorem successor?_eq_some_iff {start stop : Bytes} : successor? start = some stop ↔
    ∃ (before : Bytes) (last : UInt8) (count : Nat), last ≠ 255 ∧
      start = before ++ last :: List.replicate count 255 ∧ stop = before ++ [last + 1] := by
  constructor
  · intro h
    induction start using List.reverseRecOn with
    | nil => simp at h
    | append_singleton start b ih =>
      by_cases hb : b = 255
      · subst hb
        rw [successor?_concat_max] at h
        obtain ⟨before, last, count, hlast, rfl, rfl⟩ := ih h
        exact ⟨before, last, count + 1, hlast, by simp [List.replicate_succ'], rfl⟩
      · rw [successor?_concat start hb] at h
        exact ⟨start, b, 0, hb, rfl, (Option.some.inj h).symm⟩
  · rintro ⟨before, last, count, hlast, rfl, rfl⟩
    induction count with
    | zero => exact successor?_concat before hlast
    | succ count ih =>
      rw [List.replicate_succ', ← List.cons_append, ← List.append_assoc, successor?_concat_max]
      exact ih

/-- There is no end where there is no octet to raise. -/
theorem successor?_eq_none_iff {start : Bytes} : successor? start = none ↔ ∀ b ∈ start, b = 255 := by
  induction start using List.reverseRecOn with
  | nil => simp
  | append_singleton start b ih =>
    by_cases hb : b = 255
    · subst hb
      simpa [successor?_concat_max, or_imp, forall_and] using ih
    · simp [successor?_concat start hb, hb]

/-- An octet below 255 is raised without going round. -/
theorem toNat_raised {last : UInt8} (h : last ≠ 255) : (last + 1).toNat = last.toNat + 1 := by
  have hlast : last.toNat ≠ 255 := fun he => h (UInt8.toNat_inj.1 he)
  have hlt := last.toNat_lt
  rw [UInt8.toNat_add, UInt8.toNat_one]
  omega

/-! ## What lies beyond a range -/

/-- A string comes after every string with a start. -/
def IsBeyond (start bound : Bytes) : Prop := ∀ key, start <+: key → key < bound

/-- **What lies beyond** a range are the strings that do not come before its end. -/
theorem isBeyond_iff {start bound : Bytes} :
    IsBeyond start bound ↔ ∃ stop, successor? start = some stop ∧ stop ≤ bound := by
  constructor
  · intro h
    -- The bound comes after the start, so it has to miss the range at its other end.
    have hstart : ¬bound < start := fun hlt => List.lt_irrefl _ (List.lt_trans (h start (List.prefix_refl start)) hlt)
    have hout : ¬start <+: bound := fun hbound => List.lt_irrefl _ (h bound hbound)
    rw [isPrefix_iff_range] at hout
    by_contra hnone
    refine hout ⟨hstart, fun stop hstop => ?_⟩
    by_contra hlt
    exact hnone ⟨stop, hstop, List.not_lt.1 hlt⟩
  · rintro ⟨stop, hstop, hle⟩ key hkey
    have hlt := ((isPrefix_iff_range start key).1 hkey).2 stop hstop
    rcases lt_or_eq_or_gt stop bound with h | rfl | h
    · exact List.lt_trans hlt h
    · exact hlt
    · exact absurd h (List.not_lt.2 hle)

/-- **Ends of ranges are exact.** If a range has an end, then the end is the least string that comes after every string
with the start, the strings with the start are those from the start on that come before the end, and the octet that is
raised does not go round. There is no end exactly when no string comes after all with the start, and then these are all
strings from the start on. -/
theorem successor?_exact (start : Bytes) :
    (∀ stop, successor? start = some stop →
      (IsBeyond start stop ∧ ∀ bound, IsBeyond start bound → stop ≤ bound) ∧
        (∀ key, start <+: key ↔ start ≤ key ∧ key < stop) ∧
          ∃ (before : Bytes) (last : UInt8) (count : Nat), start = before ++ last :: List.replicate count 255 ∧
            stop = before ++ [last + 1] ∧ (last + 1).toNat = last.toNat + 1) ∧
      (successor? start = none ↔ ∀ bound, ¬IsBeyond start bound) ∧
        (successor? start = none → ∀ key, start <+: key ↔ start ≤ key) := by
  refine ⟨fun stop hstop => ⟨⟨?_, fun bound hbound => ?_⟩, fun key => ?_, ?_⟩, ?_, fun hnone key => ?_⟩
  · exact isBeyond_iff.2 ⟨stop, hstop, List.le_refl stop⟩
  · obtain ⟨stop', hstop', hle⟩ := isBeyond_iff.1 hbound
    rwa [← Option.some.inj (hstop'.symm.trans hstop)]
  · rw [isPrefix_iff_range, List.not_lt]
    simp [hstop]
  · obtain ⟨before, last, count, hlast, hstart, hraised⟩ := successor?_eq_some_iff.1 hstop
    exact ⟨before, last, count, hstart, hraised, toNat_raised hlast⟩
  · simp only [isBeyond_iff, not_exists, not_and]
    constructor
    · intro hnone bound stop hstop
      rw [hnone] at hstop
      cases hstop
    · intro h
      cases hs : successor? start with
      | none => rfl
      | some stop => exact absurd (List.le_refl stop) (h stop stop hs)
  · rw [isPrefix_iff_range, List.not_lt]
    simp [hnone]

example : successor? [97, 255, 255] = some [98] ∧ successor? [255] = none := by decide

end Schemata.Bytes

import Schemata.Proofs.Catalog.Calls
import Schemata.Proofs.Catalog.Exclusion

/-!
# The table of locks

The table of locks holds the locks in use and no others: each identity once, no lock under two identities, and a lock
only as long as somebody has entered and not left (`Tidy`). Every move keeps this (`Tidy.moves`), and so does every run
(`Tidy.run`).

- So the users that a lock counts are the callers of its identity that have entered and not left
  (`Tidy.users_eq`), and an identity has an entry in the table exactly when there are such callers
  (`Tidy.mem_table_iff`).
- A caller that leaves finds its own lock under its identity, and takes that one out if it is the last user
  (`Tidy.table_of_leaving`); no other step takes anything out (`Callers.table_suffix_of_step`).

The main result puts these together with the exclusion of callers (`run_locks_exact`).
-/

namespace Schemata.Catalog

open Table (Backend Program Store)

namespace Callers

variable {σ α : Type}

/-- How many callers of an identity have entered and not left. -/
def entrants (callers : List (Caller α)) (i : Identity) : Nat :=
  callers.countP fun caller => caller.identity = i ∧ caller.stage.lock?.isSome

theorem entrants_pos_iff {callers : List (Caller α)} {i : Identity} :
    0 < entrants callers i ↔ ∃ caller ∈ callers, caller.identity = i ∧ caller.stage.lock? ≠ none := by
  simp [entrants, List.countP_pos_iff, Option.isSome_iff_ne_none]

/-- Only a caller that leaves takes anything out of the table of locks. -/
theorem Moves.table_suffix {backend : Backend σ} {system : Callers σ α} {number : Nat} {caller caller' : Caller α}
    {state : σ} {locks : Locks} (h : system.Moves backend number caller caller' state locks)
    (hstays : ∀ lock, caller.stage ≠ .leaving lock) : system.locks.table <:+ locks.table := by
  cases h with
  | enters =>
    unfold Locks.enter
    split
    · exact List.suffix_rfl
    · exact List.suffix_cons _ _
  | acquires h =>
    unfold Locks.acquire at h
    split at h
    · cases h
      exact List.suffix_rfl
    · cases h
  | leaves => exact absurd rfl (hstays _)
  | _ => exact List.suffix_rfl

theorem table_suffix_of_step {backend : Backend σ} {system after : Callers σ α} {number : Nat} {caller : Caller α}
    (hn : system.callers[number]? = some caller) (hstays : ∀ lock, caller.stage ≠ .leaving lock)
    (hstep : system.step backend number = some after) : system.locks.table <:+ after.locks.table := by
  obtain ⟨mover, mover', state, locks, hmover, hmoves, rfl⟩ := exists_moves hstep
  obtain rfl : caller = mover := Option.some.inj (hn.symm.trans hmover)
  exact hmoves.table_suffix hstays

end Callers

/-- Callers of one identity that have entered and not left have the same lock. -/
theorem Guarded.same_lock {α : Type} {locks : Locks} {callers : List (Caller α)} (h : Guarded locks callers)
    {a b : Caller α} (ha : a ∈ callers) (hb : b ∈ callers) (hidentity : a.identity = b.identity) {l k : Nat}
    (hl : a.stage.lock? = some l) (hk : b.stage.lock? = some k) : l = k := by
  obtain ⟨m, hm⟩ := List.getElem?_of_mem ha
  obtain ⟨n, hn⟩ := List.getElem?_of_mem hb
  have hlookup := h.entered hm hl
  rw [hidentity, h.entered hn hk] at hlookup
  exact (Option.some.inj hlookup).symm

/-- The table holds the locks in use, each identity and each lock once. -/
structure Tidy {α : Type} (locks : Locks) (callers : List (Caller α)) : Prop where
  distinct : (locks.table.map (·.1)).Nodup
  /-- Different identities have different locks. -/
  apart : ∀ {i j : Identity} {lock : Nat}, locks.table.lookup i = some lock → locks.table.lookup j = some lock → i = j
  /-- Somebody uses a lock that is in the table. -/
  used : ∀ {i : Identity} {lock : Nat}, locks.table.lookup i = some lock → 0 < Callers.users callers lock

namespace Tidy

open Schemata.Catalog.Callers

variable {σ α : Type} {locks : Locks} {callers : List (Caller α)} {caller caller' : Caller α} {number lock : Nat}
  {i : Identity}

theorem empty (callers : List (Caller α)) : Tidy .empty callers where
  distinct := .nil
  apart h := by cases h
  used h := by cases h

/-! ## One move -/

section Keep

variable (h : Tidy locks callers)
include h

/-- The table stays and no lock in it loses its users. -/
theorem of_users {callers' : List (Caller α)}
    (husers : ∀ lock, 0 < users callers lock → 0 < users callers' lock) {made : List Lock} :
    Tidy ⟨made, locks.table⟩ callers' where
  distinct := h.distinct
  apart := h.apart
  used hlookup := husers _ (h.used hlookup)

/-- A caller that comes from outside makes a lock for an identity without one. -/
theorem enter_new (hguarded : Guarded locks callers) (hn : callers[number]? = some caller)
    (hnone : locks.table.lookup i = none) (houtside : caller.stage.lock? = none)
    (hwaits : caller'.stage.lock? = some locks.made.length) {made : List Lock} :
    Tidy ⟨made, (i, locks.made.length) :: locks.table⟩ (callers.set number caller') where
  distinct := by
    refine List.nodup_cons.2 ⟨fun hmem => ?_, h.distinct⟩
    obtain ⟨⟨_, lock⟩, hentry, rfl⟩ := List.mem_map.1 hmem
    rw [(Table.mem_iff_lookup h.distinct).1 hentry] at hnone
    cases hnone
  apart {j k lock} hj hk := by
    rw [List.lookup_cons] at hj hk
    by_cases hji : j = i
    · by_cases hki : k = i
      · rw [hji, hki]
      · rw [beq_false_of_ne hki] at hk
        obtain rfl : locks.made.length = lock := by simpa [hji] using hj
        exact absurd (hguarded.lt_of_lookup hk) (Nat.lt_irrefl _)
    · rw [beq_false_of_ne hji] at hj
      by_cases hki : k = i
      · obtain rfl : locks.made.length = lock := by simpa [hki] using hk
        exact absurd (hguarded.lt_of_lookup hj) (Nat.lt_irrefl _)
      · rw [beq_false_of_ne hki] at hk
        exact h.apart hj hk
  used {j lock} hj := by
    have hcount := users_set hn caller' lock
    rw [houtside, hwaits] at hcount
    rw [List.lookup_cons] at hj
    by_cases hji : j = i
    · obtain rfl : locks.made.length = lock := by simpa [hji] using hj
      simp only [reduceCtorEq, if_false, if_true] at hcount
      omega
    · rw [beq_false_of_ne hji] at hj
      have := h.used hj
      simp only [reduceCtorEq, if_false] at hcount
      omega

/-! ## Leaving -/

section Leave

variable (hguarded : Guarded locks callers) (hn : callers[number]? = some caller)
  (hleaves : caller.stage = .leaving lock)
include hguarded hn hleaves

/-- A caller that leaves finds its own lock under its identity. -/
theorem own_mem : (caller.identity, lock) ∈ locks.table := by
  rw [Table.mem_iff_lookup h.distinct]
  exact hguarded.entered hn (by rw [hleaves]; rfl)

/-- **Leaving.** The last user takes its own lock out of the table, and nothing else; any other user leaves the table
as it is. -/
theorem leave_eq : (locks.leave lock caller.identity).table =
    if users callers lock = 1 then locks.table.erase (caller.identity, lock) else locks.table := by
  have hown := h.own_mem hguarded hn hleaves
  have hlookup := (Table.mem_iff_lookup h.distinct).1 hown
  obtain ⟨holder, hmade⟩ := hguarded.counted hlookup
  have herase : locks.table.filter (·.1 ≠ caller.identity) = locks.table.erase (caller.identity, lock) := by
    rw [(List.Nodup.of_map _ h.distinct).erase_eq_filter]
    refine List.filter_congr fun entry hentry => ?_
    obtain ⟨j, k⟩ := entry
    have hiff : j = caller.identity ↔ (j, k) = (caller.identity, lock) := by
      constructor
      · rintro rfl
        have hk := (Table.mem_iff_lookup h.distinct).1 hentry
        rw [hlookup] at hk
        rw [Option.some.inj hk]
      · intro he
        exact congrArg Prod.fst he
    simp only [ne_eq, hiff, bne, decide_not, beq_eq_decide]
  have hpos := h.used hlookup
  have hleft : (locks.update lock fun l => { l with users := l.users - 1 }).made[lock]? =
      some ⟨users callers lock - 1, holder⟩ := by simp [Locks.update, hmade]
  unfold Locks.leave
  by_cases hlast : users callers lock = 1
  · rw [hlast] at hleft
    simp only [hleft]
    rw [if_pos hlast, ← herase]
    rfl
  · obtain ⟨rest, hrest⟩ : ∃ rest, users callers lock - 1 = rest + 1 := ⟨users callers lock - 2, by omega⟩
    rw [hrest] at hleft
    simp only [hleft]
    rw [if_neg hlast]
    rfl

/-- The table stays tidy when a caller leaves. -/
theorem leave (hthrough : caller'.stage = .through) :
    Tidy (locks.leave lock caller.identity) (callers.set number caller') := by
  have hown := (Table.mem_iff_lookup h.distinct).1 (h.own_mem hguarded hn hleaves)
  have heq := h.leave_eq hguarded hn hleaves
  have hsub : (locks.leave lock caller.identity).table.Sublist locks.table := by
    rw [heq]
    split
    · exact List.erase_sublist
    · exact List.Sublist.refl _
  have hdistinct : ((locks.leave lock caller.identity).table.map (·.1)).Nodup := h.distinct.sublist (hsub.map _)
  have hlookup : ∀ {j k}, (locks.leave lock caller.identity).table.lookup j = some k → locks.table.lookup j = some k := by
    intro j k hj
    rw [← Table.mem_iff_lookup h.distinct]
    exact hsub.subset ((Table.mem_iff_lookup hdistinct).2 hj)
  refine ⟨hdistinct, fun hj hk => h.apart (hlookup hj) (hlookup hk), fun {j k} hj => ?_⟩
  have hcount := users_set hn caller' k
  rw [hleaves, hthrough] at hcount
  simp only [Stage.lock?, Option.some.injEq, reduceCtorEq, if_false, Nat.add_zero] at hcount
  have hpos := h.used (hlookup hj)
  by_cases hk : lock = k
  · subst hk
    -- The lock is still in the table, so the caller was not its last user.
    have hmore : users callers lock ≠ 1 := by
      intro hone
      have hmem := (Table.mem_iff_lookup hdistinct).2 hj
      rw [heq, if_pos hone, h.apart (hlookup hj) hown, (List.Nodup.of_map _ h.distinct).mem_erase_iff] at hmem
      exact hmem.1 rfl
    rw [if_pos rfl] at hcount
    omega
  · rw [if_neg hk] at hcount
    omega

end Leave

end Keep

/-- **Every move keeps the table tidy.** -/
theorem moves {backend : Backend σ} {system : Callers σ α} {state : σ} (h : Tidy system.locks system.callers)
    (hguarded : Guarded system.locks system.callers) (hn : system.callers[number]? = some caller)
    (hmoves : system.Moves backend number caller caller' state locks) :
    Tidy locks (system.callers.set number caller') := by
  -- Moves between two stages of the same use, and moves without a lock.
  have hsame : caller'.stage.lock? = caller.stage.lock? → ∀ {made : List Lock},
      Tidy ⟨made, system.locks.table⟩ (system.callers.set number caller') := fun hlock _ =>
    h.of_users fun k hk => by rwa [users_set_of_eq hn hlock]
  cases hmoves with
  | @enters identity program script =>
    unfold Locks.enter
    split
    · rename_i lock hfound
      refine h.of_users fun k hk => ?_
      have hcount := users_set hn (⟨identity, .waiting lock, program, script⟩ : Caller α) k
      simp only [Stage.lock?, reduceCtorEq, if_false, Nat.add_zero] at hcount
      rw [hcount]
      exact Nat.add_pos_left hk _
    · rename_i hnone
      exact h.enter_new hguarded hn hnone rfl rfl
  | acquires hacquire =>
    unfold Locks.acquire at hacquire
    split at hacquire
    · cases hacquire
      exact hsame rfl
    · cases hacquire
  | leaves => exact h.leave hguarded hn rfl rfl
  | _ => exact hsame rfl

/-- **Every run keeps the table tidy**, and the locks guarded. -/
theorem run {backend : Backend σ} {system : Callers σ α} (h : Tidy system.locks system.callers)
    (hguarded : Guarded system.locks system.callers) (schedule : List Nat) :
    Tidy (system.run backend schedule).locks (system.run backend schedule).callers := by
  induction schedule generalizing system with
  | nil => exact h
  | cons number rest ih =>
    rw [Callers.run, List.foldl_cons]
    cases hstep : system.step backend number with
    | none => exact ih h hguarded
    | some system' =>
      obtain ⟨caller, caller', state, locks, hn, hmoves, rfl⟩ := exists_moves hstep
      exact ih (h.moves hguarded hn hmoves) (hguarded.moves hn hmoves)

/-! ## Users by identity -/

section Users

variable (h : Tidy locks callers) (hguarded : Guarded locks callers)
include h hguarded

/-- The users of a lock are the callers of its identity that have entered and not left. -/
theorem users_eq (hlookup : locks.table.lookup i = some lock) : users callers lock = entrants callers i := by
  refine List.countP_congr fun caller hcaller => ?_
  obtain ⟨n, hn⟩ := List.getElem?_of_mem hcaller
  simp only [decide_eq_true_eq]
  constructor
  · intro hlock
    exact ⟨h.apart (hguarded.entered hn hlock) hlookup, by rw [hlock]; rfl⟩
  · rintro ⟨rfl, hsome⟩
    obtain ⟨k, hk⟩ := Option.isSome_iff_exists.1 hsome
    rw [hk, ← hguarded.entered hn hk, hlookup]

/-- **An identity has an entry in the table exactly when somebody uses it.** -/
theorem mem_table_iff : i ∈ locks.table.map (·.1) ↔ 0 < entrants callers i := by
  constructor
  · intro hmem
    obtain ⟨⟨_, lock⟩, hentry, rfl⟩ := List.mem_map.1 hmem
    have hlookup := (Table.mem_iff_lookup h.distinct).1 hentry
    rw [← h.users_eq hguarded hlookup]
    exact h.used hlookup
  · intro hpos
    obtain ⟨caller, hcaller, rfl, hlock⟩ := entrants_pos_iff.1 hpos
    obtain ⟨n, hn⟩ := List.getElem?_of_mem hcaller
    obtain ⟨lock, hlock⟩ := Option.ne_none_iff_exists'.1 hlock
    have hentry := (Table.mem_iff_lookup h.distinct).2 (hguarded.entered hn hlock)
    exact List.mem_map.2 ⟨_, hentry, rfl⟩

/-- The lock in an entry counts the callers of its identity that have entered and not left. -/
theorem counts (hentry : (i, lock) ∈ locks.table) :
    ∃ holder, locks.made[lock]? = some ⟨entrants callers i, holder⟩ := by
  have hlookup := (Table.mem_iff_lookup h.distinct).1 hentry
  rw [← h.users_eq hguarded hlookup]
  exact hguarded.counted hlookup

end Users

/-- A caller that leaves takes the entry of its own lock out if it is the last caller of its identity. -/
theorem table_of_leaving {backend : Backend σ} {system after : Callers σ α} (h : Tidy system.locks system.callers)
    (hguarded : Guarded system.locks system.callers) (hn : system.callers[number]? = some caller)
    (hleaves : caller.stage = .leaving lock) (hstep : system.step backend number = some after) :
    after.locks.table =
      if entrants system.callers caller.identity = 1 then system.locks.table.erase (caller.identity, lock)
      else system.locks.table := by
  have hlookup := (Table.mem_iff_lookup h.distinct).1 (h.own_mem hguarded hn hleaves)
  have heq := h.leave_eq hguarded hn hleaves
  rw [h.users_eq hguarded hlookup] at heq
  obtain ⟨mover, mover', state, locks, hmover, hmoves, rfl⟩ := exists_moves hstep
  obtain rfl : caller = mover := Option.some.inj (hn.symm.trans hmover)
  cases hmoves with
  | leaves =>
    cases hleaves
    exact heq
  | asks hruns | notes hruns =>
    cases hleaves
    cases hruns
  | _ => cases hleaves

end Tidy

/-! ## Runs -/

/-- **Locks are exact.** Let any callers, each with the lock of its identity or without one, take any steps, and look at
the table of locks then.

Of the callers with one identity at most one is inside, and all that have entered and not left have the same lock. The
table has one entry for an identity if there are such callers and none otherwise, and the lock in it counts them. A
caller that is to leave finds the entry of its own lock under its identity; it takes this entry out, and no other, if
it is the last such caller, and otherwise none. No other step takes an entry out. -/
theorem run_locks_exact {σ α : Type} (backend : Backend σ) (state : σ) {callers : List (Caller α)}
    (hstart : ∀ caller ∈ callers, caller.stage = .outside ∨ caller.stage = .free) (schedule : List Nat)
    {system : Callers σ α} (hsystem : system = (Callers.start state callers).run backend schedule) :
    (∀ (m n : Nat) (a b : Caller α) (l k : Nat), system.callers[m]? = some a → system.callers[n]? = some b →
      a.identity = b.identity → a.stage = .inside l → b.stage = .inside k → m = n) ∧
    (∀ a ∈ system.callers, ∀ b ∈ system.callers, a.identity = b.identity →
      ∀ l k, a.stage.lock? = some l → b.stage.lock? = some k → l = k) ∧
    (system.locks.table.map (·.1)).Nodup ∧
    (∀ i, i ∈ system.locks.table.map (·.1) ↔ 0 < Callers.entrants system.callers i) ∧
    (∀ i lock, (i, lock) ∈ system.locks.table →
      ∃ holder, system.locks.made[lock]? = some ⟨Callers.entrants system.callers i, holder⟩) ∧
    ∀ n caller after, system.callers[n]? = some caller → system.step backend n = some after →
      match caller.stage with
      | .leaving lock =>
        (caller.identity, lock) ∈ system.locks.table ∧
          after.locks.table =
            if Callers.entrants system.callers caller.identity = 1 then
              system.locks.table.erase (caller.identity, lock)
            else system.locks.table
      | _ => system.locks.table <:+ after.locks.table := by
  have hunused : ∀ caller ∈ callers, caller.stage.lock? = none := by
    intro caller hcaller
    rcases hstart caller hcaller with h | h
    · rw [h]; rfl
    · rw [h]; rfl
  have hguarded : Guarded system.locks system.callers := by
    rw [hsystem]
    exact (Guarded.start callers hunused).run schedule
  have htidy : Tidy system.locks system.callers := by
    rw [hsystem]
    exact (Tidy.empty callers).run (Guarded.start callers hunused) schedule
  refine ⟨fun m n a b l k hm hn hidentity hl hk => hguarded.exclusive hm hn hidentity hl hk,
    fun a ha b hb hidentity l k hl hk => hguarded.same_lock ha hb hidentity hl hk, htidy.distinct,
    fun i => htidy.mem_table_iff hguarded, fun i lock hentry => htidy.counts hguarded hentry,
    fun n caller after hn hstep => ?_⟩
  split
  · rename_i lock hleaves
    exact ⟨htidy.own_mem hguarded hn hleaves, htidy.table_of_leaving hguarded hn hleaves hstep⟩
  · rename_i hstays
    exact Callers.table_suffix_of_step hn hstays hstep

namespace Sample

/-- Two callers for one identity, the first of which fails inside since it finds no descriptor, and one for another. -/
def queue : List (Caller (Except Failure Reply)) :=
  [(Request.append orders (some [1])).calm.locked, (Request.describe draft).calm.locked,
    (Request.describe { draft with identity := ⟨"", "order"⟩ }).calm.locked]

/-- The queue after some steps. -/
def queued (schedule : List Nat) : Callers Store (Except Failure Reply) :=
  (Callers.start (.memory .empty) queue).run Store.backend schedule

/-- All enter, and the first caller comes to leave while the second one waits. -/
def handedOn : List Nat := [0, 1, 2, 0, 0, 0]

/-- The first caller has left, and the second one comes to leave. -/
def lastUse : List Nat := handedOn ++ 0 :: List.replicate 7 1

end Sample

/-- The first caller leaves the entry of the two to the second one, which takes it out. -/
theorem run_locks_exact_queue :
    (∀ caller ∈ Sample.queue, caller.stage = .outside ∨ caller.stage = .free) ∧
    (∃ after, (Sample.queued Sample.handedOn).step Store.backend 0 = some after ∧
      after.locks.table = (Sample.queued Sample.handedOn).locks.table) ∧
    ∃ after, (Sample.queued Sample.lastUse).step Store.backend 1 = some after ∧
      after.locks.table = (Sample.queued Sample.lastUse).locks.table.erase (Sample.orders, 0) := by
  have hstart : ∀ caller ∈ Sample.queue, caller.stage = .outside ∨ caller.stage = .free := by decide
  have hleaves : ((Sample.queued Sample.handedOn).callers[0]?.map fun caller => (caller.identity, caller.stage)) =
      some (Sample.orders, .leaving 0) := by decide +kernel
  have hleaves' : ((Sample.queued Sample.lastUse).callers[1]?.map fun caller => (caller.identity, caller.stage)) =
      some (Sample.orders, .leaving 0) := by decide +kernel
  have hmore : Callers.entrants (Sample.queued Sample.handedOn).callers Sample.orders = 2 := by decide +kernel
  have hlast : Callers.entrants (Sample.queued Sample.lastUse).callers Sample.orders = 1 := by decide +kernel
  obtain ⟨caller, hn, hcaller⟩ := Option.map_eq_some_iff.1 hleaves
  obtain ⟨hidentity, hstage⟩ := Prod.mk.inj hcaller
  obtain ⟨caller', hn', hcaller'⟩ := Option.map_eq_some_iff.1 hleaves'
  obtain ⟨hidentity', hstage'⟩ := Prod.mk.inj hcaller'
  obtain ⟨after, hstep⟩ : ∃ after, (Sample.queued Sample.handedOn).step Store.backend 0 = some after :=
    Option.isSome_iff_exists.1 (by decide +kernel)
  obtain ⟨after', hstep'⟩ : ∃ after, (Sample.queued Sample.lastUse).step Store.backend 1 = some after :=
    Option.isSome_iff_exists.1 (by decide +kernel)
  have hrun : Sample.queued Sample.handedOn = _ := rfl
  have hrun' : Sample.queued Sample.lastUse = _ := rfl
  have hexact := (run_locks_exact Store.backend _ hstart Sample.handedOn hrun).2.2.2.2.2 0 caller after hn hstep
  have hexact' := (run_locks_exact Store.backend _ hstart Sample.lastUse hrun').2.2.2.2.2 1 caller' after' hn' hstep'
  simp only [hstage, hidentity, hmore] at hexact
  simp only [hstage', hidentity', hlast] at hexact'
  exact ⟨hstart, ⟨after, hstep, hexact.2⟩, after', hstep', hexact'.2⟩

end Schemata.Catalog

import Schemata.Server.Lifecycle

/-!
# Who holds a runner

- The `Holdings` of a server are its table and the history of tables and runners; settings and log do not count.
- A start holds its runner until it has cleaned it up or given it up, counted from when the runner was made or from when
  it was set up (`HeldBy`).
- What a move can do to holdings and starts is listed once (`Change`, `Deployment.changes`).
- In every run they fit together (`Holdings.Sound`, `Deployment.IsSound.run`): no two starts hold runners over one
  table, and what began over the present table is held until it is cleaned up.
-/

namespace Schemata

/-! ## Holdings -/

/-- What a server has, and what became of what it had. -/
structure Holdings where
  running : Bool
  table : Option Nat
  tables : Nat
  runners : Nat
  history : List Event

namespace Holdings

/-- Nothing yet. -/
def none : Holdings := ⟨false, .none, 0, 0, []⟩

/-- Adds an event to the history. -/
def happen (k : Holdings) (event : Event) : Holdings := { k with history := k.history ++ [event] }

/-- Opens a table and makes a runner over it. -/
def equip (k : Holdings) : Holdings :=
  ⟨true, some k.tables, k.tables + 1, k.runners + 1, k.history ++ [.opened k.tables, .made k.runners k.tables]⟩

/-- Closes the table, if there is one. -/
def stop (k : Holdings) : Holdings :=
  match k.table with
  | .none => k
  | some table => ⟨false, .none, k.tables, k.runners, k.history ++ [.closed table]⟩

theorem stop_of_table {k : Holdings} {table : Nat} (h : k.table = some table) :
    k.stop = ⟨false, .none, k.tables, k.runners, k.history ++ [.closed table]⟩ := by rw [stop, h]

theorem stop_of_no_table {k : Holdings} (h : k.table = .none) : k.stop = k := by rw [stop, h]

theorem mem_history_happen {k : Holdings} {e event : Event} :
    e ∈ (k.happen event).history ↔ e ∈ k.history ∨ e = event := by simp [happen]

theorem mem_history_equip {k : Holdings} {e : Event} :
    e ∈ k.equip.history ↔ e ∈ k.history ∨ e = .opened k.tables ∨ e = .made k.runners k.tables := by simp [equip]

theorem table_stop (k : Holdings) : k.stop.table = .none := by
  unfold stop
  split <;> trivial

end Holdings

namespace Server

/-- The holdings of a server. -/
def holdings (server : Server) : Holdings :=
  ⟨server.running, server.table, server.tables, server.runners, server.history⟩

variable (server : Server)

theorem holdings_stop : server.stop.holdings = server.holdings.stop := by
  cases h : server.table with
  | none => rw [Holdings.stop_of_no_table h, stop, h]
  | some table =>
    rw [Holdings.stop_of_table h, stop, h]
    rfl

theorem holdings_fail (failure : StartFailure) : (server.fail failure).holdings = server.holdings.stop :=
  holdings_stop _

end Server

/-! ## Holders -/

/-- From when on a runner counts. -/
inductive Since where
  | made
  | setUp
  deriving DecidableEq, Repr

namespace Since

/-- The event with which a runner begins to count. -/
def event : Since → Nat → Nat → Event
  | made => .made
  | setUp => .setUp

variable {since : Since} {r r' t t' : Nat}

@[simp] theorem event_eq_made_iff : since.event r t = .made r' t' ↔ since = made ∧ r = r' ∧ t = t' := by
  cases since <;> simp [event]

@[simp] theorem event_eq_setUp_iff : since.event r t = .setUp r' t' ↔ since = setUp ∧ r = r' ∧ t = t' := by
  cases since <;> simp [event]

@[simp] theorem event_ne_opened : since.event r t ≠ .opened t' := by cases since <;> simp [event]

@[simp] theorem event_ne_cleanedUp : since.event r t ≠ .cleanedUp r' := by cases since <;> simp [event]

@[simp] theorem event_ne_closed : since.event r t ≠ .closed t' := by cases since <;> simp [event]

end Since

/-- The runner that a start holds, and the table under it. -/
def Phase.runner? (since : Since) : Phase → Option (Nat × Nat)
  | settingUp runner table => if since = .made then some (runner, table) else none
  | openingSite runner table | serving runner table | cleaningUp runner table _ => some (runner, table)
  | ended _ => none

/-- The start with a number holds a runner over a table. -/
def HeldBy (since : Since) (starts : List Phase) (number runner table : Nat) : Prop :=
  starts[number]?.bind (Phase.runner? since) = some (runner, table)

section Held

variable {since : Since} {starts : List Phase} {phase phase' : Phase} {n i r r' t t' : Nat}

theorem heldBy_of_getElem? (h : starts[n]? = some phase) :
    HeldBy since starts n r t ↔ phase.runner? since = some (r, t) := by rw [HeldBy, h, Option.bind_some]

theorem not_heldBy_nil : ¬HeldBy since [] i r t := by simp [HeldBy]

theorem heldBy_append : HeldBy since (starts ++ [phase]) i r t ↔
    HeldBy since starts i r t ∨ i = starts.length ∧ phase.runner? since = some (r, t) := by
  rcases Nat.lt_trichotomy i starts.length with h | rfl | h
  · simp [HeldBy, List.getElem?_append_left h, Nat.ne_of_lt h]
  · simp [HeldBy]
  · have : (starts ++ [phase])[i]? = none := by simp; omega
    have : starts[i]? = none := by simp; omega
    simp [HeldBy, *]
    omega

/-- A start that begins holds its runner from its making on. -/
theorem heldBy_append_settingUp : HeldBy since (starts ++ [.settingUp r t]) i r' t' ↔
    HeldBy since starts i r' t' ∨ i = starts.length ∧ since = .made ∧ r = r' ∧ t = t' := by
  rw [heldBy_append]
  cases since <;> simp [Phase.runner?]

theorem heldBy_set (h : starts[n]? = some phase) : HeldBy since (starts.set n phase') i r t ↔
    i ≠ n ∧ HeldBy since starts i r t ∨ i = n ∧ phase'.runner? since = some (r, t) := by
  have hn := (List.getElem?_eq_some_iff.1 h).1
  by_cases hi : i = n
  · subst hi
    simp [HeldBy, hn]
  · simp [HeldBy, List.getElem?_set_ne (Ne.symm hi), hi]

/-- A start gives up what it holds when it ends. -/
theorem heldBy_set_ended (h : starts[n]? = some phase) {failure : Option StartFailure} :
    HeldBy since (starts.set n (.ended failure)) i r t ↔ i ≠ n ∧ HeldBy since starts i r t := by
  simp [heldBy_set h, Phase.runner?]

/-- Once set up, a runner is held both ways. -/
theorem heldBy_set_openingSite (h : starts[n]? = some (.settingUp r t)) :
    HeldBy since (starts.set n (.openingSite r t)) i r' t' ↔
      HeldBy since starts i r' t' ∨ i = n ∧ r = r' ∧ t = t' := by
  rw [heldBy_set h]
  by_cases hi : i = n
  · subst hi
    rw [heldBy_of_getElem? h]
    cases since <;> simp [Phase.runner?]
  · simp [hi]

/-- Putting a phase with the same runner in place of another one changes no holder. -/
theorem heldBy_set_of_eq (h : starts[n]? = some phase) (hphase : phase'.runner? since = phase.runner? since) :
    HeldBy since (starts.set n phase') i r t ↔ HeldBy since starts i r t := by
  rw [heldBy_set h, hphase, ← heldBy_of_getElem? h]
  grind

/-- What counts from its setting up counts from its making. -/
theorem HeldBy.made (h : HeldBy since starts i r t) : HeldBy .made starts i r t := by
  cases hi : starts[i]? with
  | none => simp [HeldBy, hi] at h
  | some phase =>
    rw [heldBy_of_getElem? hi] at h ⊢
    cases phase <;> simp_all [Phase.runner?]

end Held

/-! ## What moves change -/

/-- What a move does to holdings and starts, apart from closing a table. -/
inductive Change : Holdings → List Phase → Holdings → List Phase → Prop where
  /-- No start takes or gives up a runner. -/
  | keep {k : Holdings} {starts starts' : List Phase}
      (same : ∀ since number runner table,
        HeldBy since starts' number runner table ↔ HeldBy since starts number runner table) :
      Change k starts k starts'
  | equip {k : Holdings} {starts : List Phase} (idle : k.running = false) :
      Change k starts k.equip (starts ++ [.settingUp k.runners k.tables])
  | setUp {k : Holdings} {starts : List Phase} {number runner table : Nat}
      (phase : starts[number]? = some (.settingUp runner table)) :
      Change k starts (k.happen (.setUp runner table)) (starts.set number (.openingSite runner table))
  | cleanUp {k : Holdings} {starts : List Phase} {number runner table : Nat} {failure : Option StartFailure}
      (phase : starts[number]? = some (.cleaningUp runner table failure)) :
      Change k starts (k.happen (.cleanedUp runner)) (starts.set number (.ended failure))
  /-- A start ends without cleaning up; the table is closed already. -/
  | giveUp {k : Holdings} {starts : List Phase} {number : Nat} {phase : Phase} {failure : Option StartFailure}
      (bare : k.table = none) (held : starts[number]? = some phase) :
      Change k starts k (starts.set number (.ended failure))

namespace Change

variable {k : Holdings} {starts : List Phase} {phase phase' : Phase} {n : Nat}

theorem refl : Change k starts k starts := keep fun _ _ _ _ => Iff.rfl

theorem append_ended {failure : Option StartFailure} : Change k starts k (starts ++ [.ended failure]) :=
  keep fun _ _ _ _ => by simp [heldBy_append, Phase.runner?]

theorem set (h : starts[n]? = some phase) (hphase : ∀ since, phase'.runner? since = phase.runner? since) :
    Change k starts k (starts.set n phase') := keep fun since _ _ _ => heldBy_set_of_eq h (hphase since)

end Change

/-- The starts as they are when a move stops the server, if it does. A start that fails in setting up or opening its
site has its runner still; one that has served cleans it up first. -/
def Deployment.Move.stopping (starts : List Phase) : Deployment.Move → Option (List Phase)
  | .stop => some starts
  | .resume number failure =>
    match starts[number]?, failure with
    | some (.settingUp _ _), some _ | some (.openingSite _ _), some _ => some starts
    | some (.cleaningUp _ _ (some pending)), _ => some (starts.set number (.ended (some pending)))
    | _, _ => none
  | _ => none

theorem Deployment.Move.cases_of_stopping {move : Deployment.Move} {starts left : List Phase}
    (h : move.stopping starts = some left) :
    move = .stop ∧ left = starts ∨
    (∃ number failure runner table, move = .resume number (some failure) ∧ left = starts ∧
      (starts[number]? = some (.settingUp runner table) ∨ starts[number]? = some (.openingSite runner table))) ∨
    ∃ number failure runner table pending, move = .resume number failure ∧
      left = starts.set number (.ended (some pending)) ∧
      starts[number]? = some (.cleaningUp runner table (some pending)) := by
  unfold stopping at h
  split at h
  · exact .inl ⟨rfl, (Option.some.inj h).symm⟩
  · split at h
    · rename_i hphase
      exact .inr (.inl ⟨_, _, _, _, rfl, (Option.some.inj h).symm, .inl hphase⟩)
    · rename_i hphase
      exact .inr (.inl ⟨_, _, _, _, rfl, (Option.some.inj h).symm, .inr hphase⟩)
    · rename_i hphase
      exact .inr (.inr ⟨_, _, _, _, _, rfl, (Option.some.inj h).symm, hphase⟩)
    · cases h
  · cases h

namespace Deployment

/-- What a move comes to: one change, or a change, the end of the table, and another change. -/
def Changes (deployment : Deployment) (move : Move) : Prop :=
  match move.stopping deployment.starts with
  | none => Change deployment.server.holdings deployment.starts (deployment.move move).server.holdings
      (deployment.move move).starts
  | some left => ∃ k, k.table = deployment.server.table ∧ Change deployment.server.holdings deployment.starts k left ∧
      Change k.stop left (deployment.move move).server.holdings (deployment.move move).starts

variable {deployment : Deployment}

theorem changes_start (h : deployment.server.running = deployment.server.table.isSome)
    (opened : Except OpeningFailure Log.Record) : deployment.Changes (.start opened) := by
  change Change _ _ (deployment.start opened).server.holdings (deployment.start opened).starts
  cases hrunning : deployment.server.running with
  | true =>
    simp only [start, hrunning, if_true]
    exact .append_ended
  | false =>
    simp only [start, hrunning, Bool.false_eq_true, if_false]
    cases opened with
    | error failure =>
      -- Nothing runs, so there is no table that the failure could close.
      have hbare : deployment.server.holdings.table = none := by simpa [hrunning, Server.holdings] using h
      rw [Server.holdings_fail]
      exact (Holdings.stop_of_no_table hbare).symm ▸ .append_ended
    | ok record =>
      have hequip : Change deployment.server.holdings deployment.starts deployment.server.holdings.equip
          (deployment.starts ++ [.settingUp deployment.server.runners deployment.server.tables]) := .equip hrunning
      simpa [Holdings.equip, Server.holdings, Server.note, Server.say, Server.happen] using hequip

/-- A start that fails ends without its runner, and without a table. -/
theorem change_fail {starts : List Phase} {number : Nat} {phase : Phase} (server : Server) (failure : StartFailure)
    (hphase : starts[number]? = some phase) :
    Change server.holdings.stop starts (server.fail failure).holdings (starts.set number (.ended (some failure))) := by
  rw [Server.holdings_fail]
  exact .giveUp (Holdings.table_stop _) hphase

theorem changes_resume (number : Nat) (failure : Option StartFailure) :
    deployment.Changes (.resume number failure) := by
  unfold Changes Move.stopping
  simp only [move, resume]
  cases hphase : deployment.starts[number]? with
  | none => exact .refl
  | some phase =>
    cases phase with
    | settingUp runner table =>
      cases failure with
      | none => exact .setUp hphase
      | some failure => exact ⟨_, rfl, .refl, change_fail _ failure hphase⟩
    | openingSite runner table =>
      cases failure with
      | none => exact .set hphase fun _ => rfl
      | some failure => exact ⟨_, rfl, .refl, change_fail _ failure hphase⟩
    | serving runner table =>
      cases failure with
      | none =>
        simp only [goOn]
        split
        · exact .set hphase fun _ => rfl
        · exact .refl
      | some failure => exact .set hphase fun _ => rfl
    | cleaningUp runner table pending =>
      cases pending with
      | none => exact .cleanUp hphase
      | some pending =>
        refine ⟨deployment.server.holdings.happen (.cleanedUp runner), rfl, .cleanUp hphase, ?_⟩
        exact (Server.holdings_fail (deployment.server.happen (.cleanedUp runner)) pending).symm ▸ .refl
    | ended _ => exact .refl

theorem changes_cancel (number : Nat) : deployment.Changes (.cancel number) := by
  simp only [Changes, Move.stopping, move, cancel]
  split
  · rename_i hphase
    exact .set hphase fun _ => rfl
  · exact .refl

/-- **What a move changes**, whatever the move. -/
theorem changes (h : deployment.server.running = deployment.server.table.isSome) (move : Move) :
    deployment.Changes move := by
  cases move with
  | start opened => exact changes_start h opened
  | stop => exact ⟨_, rfl, .refl, Server.holdings_stop _ ▸ .refl⟩
  | askToEnd => exact Change.refl
  | resume number failure => exact changes_resume number failure
  | cancel number => exact changes_cancel number

end Deployment

/-! ## Soundness -/

namespace Holdings

/-- How holdings and starts fit together. -/
structure Sound (k : Holdings) (starts : List Phase) : Prop where
  running_eq : k.running = k.table.isSome
  begun_lt : ∀ (since : Since) (runner table), since.event runner table ∈ k.history →
    runner < k.runners ∧ table < k.tables
  cleaned_lt : ∀ runner, .cleanedUp runner ∈ k.history → runner < k.runners
  /-- What a start holds began and was not cleaned up. -/
  held : ∀ since number runner table, HeldBy since starts number runner table →
    since.event runner table ∈ k.history ∧ .cleanedUp runner ∉ k.history
  /-- Two starts hold neither one runner nor runners over one table. -/
  apart : ∀ number number' runner runner' table table', HeldBy .made starts number runner table →
    HeldBy .made starts number' runner' table' → number ≠ number' → runner ≠ runner' ∧ table ≠ table'
  /-- What began over the present table is held until it is cleaned up. -/
  kept : ∀ (since : Since) (runner table), k.table = some table → since.event runner table ∈ k.history →
    .cleanedUp runner ∈ k.history ∨ ∃ number, HeldBy since starts number runner table

namespace Sound

variable {k k' : Holdings} {starts starts' : List Phase} {number runner table : Nat}

theorem nil : Sound .none [] where
  running_eq := rfl
  begun_lt _ _ _ h := absurd h List.not_mem_nil
  cleaned_lt _ h := absurd h List.not_mem_nil
  held _ _ _ _ h := absurd h not_heldBy_nil
  apart _ _ _ _ _ _ h := absurd h not_heldBy_nil
  kept _ _ _ h := nomatch h

theorem held_lt {since : Since} (h : Sound k starts) (hheld : HeldBy since starts number runner table) :
    runner < k.runners ∧ table < k.tables := h.begun_lt since _ _ (h.held _ _ _ _ hheld).1

theorem keep (h : Sound k starts)
    (same : ∀ since number runner table,
      HeldBy since starts' number runner table ↔ HeldBy since starts number runner table) : Sound k starts' where
  running_eq := h.running_eq
  begun_lt := h.begun_lt
  cleaned_lt := h.cleaned_lt
  held since i r t hheld := h.held since i r t ((same ..).1 hheld)
  apart i j r r' t t' hi hj := h.apart i j r r' t t' ((same ..).1 hi) ((same ..).1 hj)
  kept since r t htable hbegun := by
    simp only [same]
    exact h.kept since r t htable hbegun

theorem equip (h : Sound k starts) : Sound k.equip (starts ++ [.settingUp k.runners k.tables]) where
  running_eq := rfl
  begun_lt since r t hbegun := by
    simp only [mem_history_equip, Since.event_ne_opened, Since.event_eq_made_iff, false_or] at hbegun
    rcases hbegun with hbegun | ⟨-, rfl, rfl⟩
    · exact (h.begun_lt since r t hbegun).imp Nat.lt_succ_of_lt Nat.lt_succ_of_lt
    · exact ⟨Nat.lt_succ_self _, Nat.lt_succ_self _⟩
  cleaned_lt r hcleaned := by
    simp only [mem_history_equip, reduceCtorEq, or_false] at hcleaned
    exact Nat.lt_succ_of_lt (h.cleaned_lt r hcleaned)
  held since i r t hheld := by
    simp only [mem_history_equip, Since.event_ne_opened, Since.event_eq_made_iff, reduceCtorEq, false_or, or_false]
    rcases heldBy_append_settingUp.1 hheld with hheld | ⟨-, rfl, rfl, rfl⟩
    · exact (h.held since i r t hheld).imp_left .inl
    · exact ⟨.inr ⟨rfl, rfl, rfl⟩, fun hcleaned => Nat.lt_irrefl _ (h.cleaned_lt _ hcleaned)⟩
  apart i j r r' t t' hi hj hne := by
    rw [heldBy_append_settingUp] at hi hj
    rcases hi with hi | ⟨rfl, -, rfl, rfl⟩ <;> rcases hj with hj | ⟨rfl, -, rfl, rfl⟩
    · exact h.apart i j r r' t t' hi hj hne
    · exact (h.held_lt hi).imp Nat.ne_of_lt Nat.ne_of_lt
    · exact (h.held_lt hj).imp Nat.ne_of_gt Nat.ne_of_gt
    · exact absurd rfl hne
  kept since r t htable hbegun := by
    obtain rfl : k.tables = t := Option.some.inj htable
    simp only [mem_history_equip, Since.event_ne_opened, Since.event_eq_made_iff, false_or] at hbegun
    rcases hbegun with hbegun | ⟨rfl, rfl, -⟩
    · exact absurd (h.begun_lt since r _ hbegun).2 (Nat.lt_irrefl _)
    · exact .inr ⟨starts.length, heldBy_append_settingUp.2 (.inr ⟨rfl, rfl, rfl, rfl⟩)⟩

theorem setUp (h : Sound k starts) (hphase : starts[number]? = some (.settingUp runner table)) :
    Sound (k.happen (.setUp runner table)) (starts.set number (.openingSite runner table)) := by
  have hown : HeldBy .made starts number runner table := (heldBy_of_getElem? hphase).2 rfl
  exact {
    running_eq := h.running_eq
    begun_lt := fun since r t hbegun => by
      simp only [mem_history_happen, Since.event_eq_setUp_iff] at hbegun
      rcases hbegun with hbegun | ⟨-, rfl, rfl⟩
      · exact h.begun_lt since r t hbegun
      · exact h.held_lt hown
    cleaned_lt := fun r hcleaned => by
      simp only [mem_history_happen, reduceCtorEq, or_false] at hcleaned
      exact h.cleaned_lt r hcleaned
    held := fun since i r t hheld => by
      simp only [mem_history_happen, Since.event_eq_setUp_iff, reduceCtorEq, or_false]
      rcases (heldBy_set_openingSite hphase).1 hheld with hheld | ⟨rfl, rfl, rfl⟩
      · exact (h.held since i r t hheld).imp_left .inl
      · refine ⟨?_, (h.held _ _ _ _ hown).2⟩
        cases since with
        | made => exact .inl (h.held _ _ _ _ hown).1
        | setUp => exact .inr ⟨rfl, rfl, rfl⟩
    apart := fun i j r r' t t' hi hj => by
      have hsame : ∀ i r t, HeldBy .made (starts.set number (.openingSite runner table)) i r t ↔
          HeldBy .made starts i r t := fun _ _ _ => heldBy_set_of_eq hphase rfl
      exact h.apart i j r r' t t' ((hsame ..).1 hi) ((hsame ..).1 hj)
    kept := fun since r t htable hbegun => by
      simp only [mem_history_happen, Since.event_eq_setUp_iff, heldBy_set_openingSite hphase, reduceCtorEq,
        or_false] at hbegun ⊢
      rcases hbegun with hbegun | ⟨-, rfl, rfl⟩
      · exact (h.kept since r t htable hbegun).imp_right (.imp fun _ => .inl)
      · exact .inr ⟨number, .inr ⟨rfl, rfl, rfl⟩⟩ }

theorem cleanUp {failure : Option StartFailure} (h : Sound k starts)
    (hphase : starts[number]? = some (.cleaningUp runner table failure)) :
    Sound (k.happen (.cleanedUp runner)) (starts.set number (.ended failure)) := by
  have hown : HeldBy .made starts number runner table := (heldBy_of_getElem? hphase).2 rfl
  exact {
    running_eq := h.running_eq
    begun_lt := fun since r t hbegun => by
      simp only [mem_history_happen, Since.event_ne_cleanedUp, or_false] at hbegun
      exact h.begun_lt since r t hbegun
    cleaned_lt := fun r hcleaned => by
      simp only [mem_history_happen, Event.cleanedUp.injEq] at hcleaned
      rcases hcleaned with hcleaned | rfl
      · exact h.cleaned_lt r hcleaned
      · exact (h.held_lt hown).1
    held := fun since i r t hheld => by
      obtain ⟨hne, hheld⟩ := (heldBy_set_ended hphase).1 hheld
      -- No other start has the runner that is cleaned up.
      have hrunner := (h.apart _ _ _ _ _ _ hheld.made hown hne).1
      simp only [mem_history_happen, Since.event_ne_cleanedUp, or_false, Event.cleanedUp.injEq, hrunner]
      exact h.held since i r t hheld
    apart := fun i j r r' t t' hi hj =>
      h.apart i j r r' t t' ((heldBy_set_ended hphase).1 hi).2 ((heldBy_set_ended hphase).1 hj).2
    kept := fun since r t htable hbegun => by
      simp only [mem_history_happen, Since.event_ne_cleanedUp, or_false, Event.cleanedUp.injEq] at hbegun ⊢
      rcases h.kept since r t htable hbegun with hcleaned | ⟨i, hi⟩
      · exact .inl (.inl hcleaned)
      by_cases hne : i = number
      · subst hne
        rw [heldBy_of_getElem? hphase] at hi
        cases hi
        exact .inl (.inr rfl)
      · exact .inr ⟨i, (heldBy_set_ended hphase).2 ⟨hne, hi⟩⟩ }

theorem giveUp {phase : Phase} {failure : Option StartFailure} (h : Sound k starts) (hbare : k.table = .none)
    (hphase : starts[number]? = some phase) : Sound k (starts.set number (.ended failure)) where
  running_eq := h.running_eq
  begun_lt := h.begun_lt
  cleaned_lt := h.cleaned_lt
  held since i r t hheld := h.held since i r t ((heldBy_set_ended hphase).1 hheld).2
  apart i j r r' t t' hi hj :=
    h.apart i j r r' t t' ((heldBy_set_ended hphase).1 hi).2 ((heldBy_set_ended hphase).1 hj).2
  kept since r t htable := by cases hbare.symm.trans htable

theorem stop (h : Sound k starts) : Sound k.stop starts := by
  cases htable : k.table with
  | none => rwa [Holdings.stop_of_no_table htable]
  | some table =>
    rw [Holdings.stop_of_table htable]
    exact {
      running_eq := rfl
      begun_lt := fun since r t hbegun => h.begun_lt since r t (by simpa using hbegun)
      cleaned_lt := fun r hcleaned => h.cleaned_lt r (by simpa using hcleaned)
      held := fun since i r t hheld => by simpa using h.held since i r t hheld
      apart := h.apart
      kept := nofun }

theorem change (h : Sound k starts) (hchange : Change k starts k' starts') : Sound k' starts' := by
  cases hchange with
  | keep same => exact h.keep same
  | equip => exact h.equip
  | setUp hphase => exact h.setUp hphase
  | cleanUp hphase => exact h.cleanUp hphase
  | giveUp hbare hphase => exact h.giveUp hbare hphase

end Sound

end Holdings

namespace Deployment

/-- The holdings of a deployment's server fit its starts. -/
def IsSound (deployment : Deployment) : Prop := deployment.server.holdings.Sound deployment.starts

theorem isSound_new (settings : Settings) : (new settings).IsSound := .nil

theorem IsSound.move {deployment : Deployment} (h : deployment.IsSound) (move : Move) :
    (deployment.move move).IsSound := by
  have hchanges := deployment.changes h.running_eq move
  unfold Changes at hchanges
  split at hchanges
  · exact h.change hchanges
  · obtain ⟨k, -, hfirst, hlast⟩ := hchanges
    exact (h.change hfirst).stop.change hlast

theorem IsSound.run {deployment : Deployment} (h : deployment.IsSound) (moves : List Move) :
    (deployment.run moves).IsSound := by
  induction moves generalizing deployment with
  | nil => exact h
  | cons move moves ih => exact ih (h.move move)

end Deployment

end Schemata

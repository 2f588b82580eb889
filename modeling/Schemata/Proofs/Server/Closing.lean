import Mathlib.Data.List.Induction
import Schemata.Proofs.Server.Holders

/-!
# Tables are closed after the runners over them

A table is closed in order if each runner over it was cleaned up before (`ClosedInOrder`).

- A move keeps the order iff it does not stop the server while a start holds a runner over the table
  (`Deployment.ClosesInUse`, `Deployment.IsSound.closedInOrder_move`).
- Careful moves keep it: the server is stopped once every start has ended, and no start fails before it serves
  (`Deployment.Move.isCareful`, `Deployment.careful_move`). Then only one start at a time holds a runner (`Current`).
- Both are carried over to runs in `Deployment.closed_in_order`. A site that does not open, and a stop while a start
  serves, break the order (`Deployment.not_closed_in_order`).
-/

namespace Schemata

/-! ## The order of a history -/

/-- Where a table is closed, the runners that began over it were cleaned up before. -/
def ClosedInOrder (since : Since) (history : List Event) : Prop :=
  ∀ before table after, history = before ++ .closed table :: after →
    ∀ runner, since.event runner table ∈ before → .cleanedUp runner ∈ before

section Order

variable {since : Since} {history : List Event} {event : Event}

theorem closedInOrder_nil : ClosedInOrder since [] := fun before _ _ h => by simp at h

theorem closedInOrder_concat : ClosedInOrder since (history ++ [event]) ↔ ClosedInOrder since history ∧
    ∀ table, event = .closed table → ∀ runner, since.event runner table ∈ history → .cleanedUp runner ∈ history := by
  constructor
  · intro h
    refine ⟨fun before table after hhistory => h before table (after ++ [event]) (by simp [hhistory]), ?_⟩
    rintro table rfl
    exact h history table [] rfl
  · rintro ⟨h, hlast⟩ before table after hhistory
    rcases List.eq_nil_or_concat after with rfl | ⟨after, last, rfl⟩
    · obtain ⟨rfl, hevent⟩ := List.append_inj' hhistory rfl
      exact hlast table (List.singleton_inj.1 hevent)
    · rw [List.concat_eq_append, ← List.cons_append, ← List.append_assoc] at hhistory
      exact h before table after (List.append_inj' hhistory rfl).1

theorem closedInOrder_concat_of_ne (h : ∀ table, event ≠ .closed table) :
    ClosedInOrder since (history ++ [event]) ↔ ClosedInOrder since history := by
  rw [closedInOrder_concat]
  exact and_iff_left fun table hevent => absurd hevent (h table)

theorem Change.closedInOrder_iff {k k' : Holdings} {starts starts' : List Phase} (h : Change k starts k' starts') :
    ClosedInOrder since k'.history ↔ ClosedInOrder since k.history := by
  cases h with
  | keep | giveUp => exact Iff.rfl
  | equip =>
    rw [Holdings.equip, List.append_cons, closedInOrder_concat_of_ne (by simp), closedInOrder_concat_of_ne (by simp)]
  | setUp | cleanUp => exact closedInOrder_concat_of_ne (by simp)

end Order

/-- Some start holds a runner over the table. -/
def InUse (since : Since) (table : Option Nat) (starts : List Phase) : Prop :=
  ∃ t ∈ table, ∃ number runner, HeldBy since starts number runner t

/-- The end of the table is in order iff the table is not in use. -/
theorem Holdings.Sound.closedInOrder_stop {k : Holdings} {starts : List Phase} (h : k.Sound starts) (since : Since) :
    ClosedInOrder since k.stop.history ↔ ClosedInOrder since k.history ∧ ¬InUse since k.table starts := by
  cases htable : k.table with
  | none => simp [Holdings.stop_of_no_table htable, InUse]
  | some table =>
    rw [Holdings.stop_of_table htable, closedInOrder_concat]
    refine and_congr_right fun _ => ⟨?_, ?_⟩
    · rintro hcleaned ⟨t, ht, number, runner, hheld⟩
      obtain rfl := Option.some.inj ht
      obtain ⟨hbegun, hnot⟩ := h.held _ _ _ _ hheld
      exact hnot (hcleaned _ rfl runner hbegun)
    · rintro hunused t ht runner hbegun
      obtain rfl := Event.closed.inj ht
      refine (h.kept since runner table htable hbegun).resolve_right ?_
      rintro ⟨number, hheld⟩
      exact hunused ⟨table, rfl, number, runner, hheld⟩

namespace Deployment

/-! ## Runs -/

/-- A move closes the table while a start holds a runner over it. -/
def ClosesInUse (since : Since) (deployment : Deployment) (move : Move) : Prop :=
  ∃ left ∈ move.stopping deployment.starts, InUse since deployment.server.table left

theorem IsSound.closedInOrder_move {deployment : Deployment} (h : deployment.IsSound) (since : Since) (move : Move) :
    ClosedInOrder since (deployment.move move).server.history ↔
      ClosedInOrder since deployment.server.history ∧ ¬deployment.ClosesInUse since move := by
  have hchanges := deployment.changes h.running_eq move
  unfold Changes at hchanges
  split at hchanges
  · rename_i hnone
    have hquiet : ¬deployment.ClosesInUse since move := by simp [ClosesInUse, hnone]
    exact hchanges.closedInOrder_iff.trans (and_iff_left hquiet).symm
  · rename_i left hleft
    obtain ⟨k, htable, hfirst, hlast⟩ := hchanges
    have huse : deployment.ClosesInUse since move ↔ InUse since k.table left := by simp [ClosesInUse, hleft, htable]
    rw [huse]
    exact hlast.closedInOrder_iff.trans
      (((h.change hfirst).closedInOrder_stop since).trans (and_congr_left' hfirst.closedInOrder_iff))

/-- Something holds of each move of a run, where it is made. -/
def AllMoves (P : Deployment → Move → Prop) : Deployment → List Move → Prop
  | _, [] => True
  | deployment, move :: moves => P deployment move ∧ AllMoves P (deployment.move move) moves

theorem allMoves_concat {P : Deployment → Move → Prop} {deployment : Deployment} {moves : List Move} {move : Move} :
    AllMoves P deployment (moves ++ [move]) ↔ AllMoves P deployment moves ∧ P (deployment.run moves) move := by
  induction moves generalizing deployment with
  | nil => simp [AllMoves, run]
  | cons first moves ih => simp [AllMoves, ih, and_assoc, run]

theorem run_concat (deployment : Deployment) (moves : List Move) (move : Move) :
    deployment.run (moves ++ [move]) = (deployment.run moves).move move := by simp [run]

theorem closedInOrder_run (settings : Settings) (since : Since) (moves : List Move) :
    ClosedInOrder since ((new settings).run moves).server.history ↔
      AllMoves (fun deployment move => ¬deployment.ClosesInUse since move) (new settings) moves := by
  induction moves using List.reverseRecOn with
  | nil => exact iff_of_true closedInOrder_nil trivial
  | append_singleton moves move ih =>
    rw [run_concat, ((isSound_new settings).run moves).closedInOrder_move, ih, allMoves_concat]

end Deployment

/-! ## Careful runs -/

/-- Whether a start has ended. -/
def Phase.isEnded : Phase → Bool
  | ended _ => true
  | _ => false

theorem not_heldBy_of_ended {since : Since} {starts : List Phase} {number runner table : Nat}
    (h : starts.all Phase.isEnded) : ¬HeldBy since starts number runner table := by
  cases hphase : starts[number]? with
  | none => simp [HeldBy, hphase]
  | some phase =>
    have hended := List.all_eq_true.1 h phase (List.mem_of_getElem? hphase)
    cases phase <;> simp_all [HeldBy, Phase.isEnded, Phase.runner?]

/-- Whether a move is made with care: the server is stopped once every start has ended, and no start fails in opening
its site, nor, if runners count from their making, in setting up. -/
def Deployment.Move.isCareful (since : Since) (starts : List Phase) : Deployment.Move → Bool
  | .stop => starts.all Phase.isEnded
  | .resume number (some _) =>
    match starts[number]? with
    | some (.settingUp _ _) => since == .setUp
    | some (.openingSite _ _) => false
    | _ => true
  | _ => true

/-- Every runner that is held is over the present table. -/
def Current (table : Option Nat) (starts : List Phase) : Prop :=
  ∀ number runner t, HeldBy .made starts number runner t → table = some t

namespace Current

variable {k k' : Holdings} {starts starts' : List Phase} {phase : Phase} {n i r r' t t' : Nat}

theorem change (hcurrent : Current k.table starts) (hsound : k.Sound starts) (h : Change k starts k' starts') :
    Current k'.table starts' := by
  intro i r t hheld
  cases h with
  | keep same => exact hcurrent i r t ((same ..).1 hheld)
  | equip hidle =>
    rcases heldBy_append_settingUp.1 hheld with hheld | ⟨-, -, -, rfl⟩
    · -- Nothing runs, so there is no table for an older start to hold on to.
      have hrunning := hsound.running_eq
      simp [hidle, hcurrent i r t hheld] at hrunning
    · rfl
  | setUp hphase =>
    rcases (heldBy_set_openingSite hphase).1 hheld with hheld | ⟨rfl, rfl, rfl⟩
    · exact hcurrent i r t hheld
    · exact hcurrent _ _ _ ((heldBy_of_getElem? hphase).2 rfl)
  | cleanUp hphase => exact hcurrent i r t ((heldBy_set_ended hphase).1 hheld).2
  | giveUp _ hphase => exact hcurrent i r t ((heldBy_set_ended hphase).1 hheld).2

/-- Only one start holds a runner over the present table. -/
theorem eq_of_heldBy (hcurrent : Current k.table starts) (hsound : k.Sound starts) (h : HeldBy .made starts n r t)
    (h' : HeldBy .made starts i r' t') : i = n := by
  by_contra hne
  have htable := (hcurrent _ _ _ h').symm.trans (hcurrent _ _ _ h)
  exact (hsound.apart _ _ _ _ _ _ h' h hne).2 (Option.some.inj htable)

theorem not_heldBy_set_ended (hcurrent : Current k.table starts) (hsound : k.Sound starts)
    (hphase : starts[n]? = some phase) (hrunner : phase.runner? .made = some (r, t)) {since : Since}
    {failure : Option StartFailure} : ¬HeldBy since (starts.set n (.ended failure)) i r' t' := by
  rw [heldBy_set_ended hphase]
  rintro ⟨hne, hheld⟩
  exact hne (hcurrent.eq_of_heldBy hsound ((heldBy_of_getElem? hphase).2 hrunner) hheld.made)

end Current

namespace Deployment

variable {deployment : Deployment} {since : Since} {move : Move}

theorem careful_of_not_stopping (hsound : deployment.IsSound)
    (hcurrent : Current deployment.server.table deployment.starts) (h : move.stopping deployment.starts = none) :
    ¬deployment.ClosesInUse since move ∧
      Current (deployment.move move).server.table (deployment.move move).starts := by
  have hchanges := deployment.changes hsound.running_eq move
  rw [Changes, h] at hchanges
  exact ⟨by simp [ClosesInUse, h], Current.change hcurrent hsound hchanges⟩

/-- A move after which no start has a runner. -/
theorem careful_of_not_heldBy {left : List Phase} (hleft : move.stopping deployment.starts = some left)
    (hunused : ∀ number runner table, ¬HeldBy since left number runner table)
    (hafter : ∀ number runner table, ¬HeldBy .made (deployment.move move).starts number runner table) :
    ¬deployment.ClosesInUse since move ∧
      Current (deployment.move move).server.table (deployment.move move).starts := by
  refine ⟨?_, fun i r t hheld => absurd hheld (hafter i r t)⟩
  rintro ⟨starts, hstarts, t, -, i, r, hheld⟩
  obtain rfl := Option.some.inj (hleft.symm.trans hstarts)
  exact hunused i r t hheld

/-- **Careful moves** never close a table in use, and leave runners only over the present table. -/
theorem careful_move (hsound : deployment.IsSound)
    (hcurrent : Current deployment.server.table deployment.starts) (hcareful : move.isCareful since deployment.starts) :
    ¬deployment.ClosesInUse since move ∧
      Current (deployment.move move).server.table (deployment.move move).starts := by
  cases hstop : move.stopping deployment.starts with
  | none => exact careful_of_not_stopping hsound hcurrent hstop
  | some left =>
    obtain ⟨rfl, rfl⟩ | ⟨number, failure, runner, table, rfl, rfl, hphase | hphase⟩ |
      ⟨number, failure, runner, table, pending, rfl, rfl, hphase⟩ := Move.cases_of_stopping hstop
    · exact careful_of_not_heldBy hstop (fun _ _ _ => not_heldBy_of_ended hcareful)
        fun _ _ _ => not_heldBy_of_ended hcareful
    · -- The runner is not set up yet, and no other start has one.
      obtain rfl : since = .setUp := by simpa [Move.isCareful, hphase] using hcareful
      refine careful_of_not_heldBy hstop (fun i r t hheld => ?_) fun i r t => ?_
      · obtain rfl := hcurrent.eq_of_heldBy hsound ((heldBy_of_getElem? hphase).2 rfl) hheld.made
        rw [heldBy_of_getElem? hphase] at hheld
        cases hheld
      · simpa [Deployment.move, resume, hphase, goOn] using hcurrent.not_heldBy_set_ended hsound hphase rfl
    · simp [Move.isCareful, hphase] at hcareful
    · -- The only runner is cleaned up.
      have hafter : ∀ since i r t, ¬HeldBy since (deployment.starts.set number (.ended (some pending))) i r t :=
        fun _ _ _ _ => hcurrent.not_heldBy_set_ended hsound hphase rfl
      refine careful_of_not_heldBy hstop (hafter since) ?_
      simpa [Deployment.move, resume, hphase, goOn] using hafter .made

theorem careful_run (settings : Settings) (since : Since) (moves : List Move)
    (h : AllMoves (fun deployment move => move.isCareful since deployment.starts) (new settings) moves) :
    AllMoves (fun deployment move => ¬deployment.ClosesInUse since move) (new settings) moves ∧
      Current ((new settings).run moves).server.table ((new settings).run moves).starts := by
  induction moves using List.reverseRecOn with
  | nil => exact ⟨trivial, fun _ _ _ hheld => absurd hheld not_heldBy_nil⟩
  | append_singleton moves move ih =>
    rw [allMoves_concat] at h ⊢
    obtain ⟨hmoves, hcurrent⟩ := ih h.1
    have hmove := careful_move ((isSound_new settings).run moves) hcurrent h.2
    rw [run_concat]
    exact ⟨⟨hmoves, hmove.1⟩, hmove.2⟩

/-- **Tables are closed after the runners over them**, counted from their making or their setting up, exactly in the
runs in which no move closes a table while a start holds a runner over it. So it is in all careful runs. -/
theorem closed_in_order (settings : Settings) (since : Since) (moves : List Move) :
    (ClosedInOrder since ((new settings).run moves).server.history ↔
      AllMoves (fun deployment move => ¬deployment.ClosesInUse since move) (new settings) moves) ∧
    (AllMoves (fun deployment move => move.isCareful since deployment.starts) (new settings) moves →
      ClosedInOrder since ((new settings).run moves).server.history) := by
  have hexact := closedInOrder_run settings since moves
  exact ⟨hexact, fun h => hexact.2 (careful_run settings since moves h).1⟩

namespace Sample

/-- A start over a table in memory. -/
def begin : Move :=
  .start (.ok (.plain .tableChoice .warning "Using in-memory table; all schemas are lost on exit"))

/-- A start serves while another one is refused, ends when asked to, and is stopped. Then the next one begins. -/
def twice : List Move :=
  [begin, .resume 0 none, .resume 0 none, begin, .askToEnd, .resume 0 none, .resume 0 none, .stop, begin]

/-- The site of a start does not open. -/
def withoutSite : List Move := [begin, .resume 0 none, .resume 0 (some .port)]

/-- The server is stopped while a start serves. -/
def cutOff : List Move := [begin, .resume 0 none, .resume 0 none, .stop]

end Sample

theorem closed_in_order_twice :
    AllMoves (fun deployment move => move.isCareful .made deployment.starts) (new .standard) Sample.twice ∧
    ((new .standard).run Sample.twice).server.history =
      [.opened 0, .made 0 0, .setUp 0 0, .cleanedUp 0, .closed 0, .opened 1, .made 1 1] ∧
    ClosedInOrder .made ((new .standard).run Sample.twice).server.history := by
  have hcareful : AllMoves (fun deployment move => move.isCareful .made deployment.starts) (new .standard)
      Sample.twice := ⟨rfl, rfl, rfl, rfl, rfl, rfl, rfl, rfl, rfl, trivial⟩
  exact ⟨hcareful, rfl, (closed_in_order .standard .made Sample.twice).2 hcareful⟩

/-- In both runs the table is closed under a runner that is set up. -/
theorem not_closed_in_order :
    ¬ClosedInOrder .setUp ((new .standard).run Sample.withoutSite).server.history ∧
    ¬ClosedInOrder .setUp ((new .standard).run Sample.cutOff).server.history := by
  have hbroken : ¬ClosedInOrder .setUp [.opened 0, .made 0 0, .setUp 0 0, .closed 0] := by
    intro h
    have hcleaned := h [.opened 0, .made 0 0, .setUp 0 0] 0 [] rfl 0 (by decide)
    exact absurd hcleaned (by decide)
  exact ⟨hbroken, hbroken⟩

end Deployment

end Schemata

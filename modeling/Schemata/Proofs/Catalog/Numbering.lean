import Schemata.Proofs.Catalog.Run

/-!
# Version numbers over runs with failures

Throughout, a run starts with a new table, any of its commands may fail, and a stretch is a part of its history in
which an identity keeps its descriptor.

- The numbers that are acknowledged in a stretch increase, and no append changes a version that is stored
  (`acknowledged_ascending`).
- A number can be given to a second content only where a version is erased that was the highest and was never counted
  (`Event.Forgets`): in a stretch without such an erasure all readers of a number see one content, and wherever there
  could be one, some run goes on to show two (`contents_agree`).
-/

namespace Schemata.Catalog

open Table (Contents Store)

variable {i : Identity} {s t u : Contents} {events earlier later : List Event} {event : Event}

/-! ## What events tell -/

namespace Event

/-- No version that is there before an event is taken away or changed by it. -/
def KeepsVersions (event : Event) : Prop :=
  ∀ (i : Identity) (n : Int) content, i.rowOf event.before (.version n) = some content →
    i.rowOf event.after (.version n) = some content

/-- A version of the identity was erased that was the highest and was never counted. -/
def Forgets (i : Identity) (event : Event) : Prop :=
  i.counterOf event.before < i.latestOf event.before ∧
    event.call.request = .eraseVersion i (i.latestOf event.before) ∧ event.result = .ok .done

instance (result : Except Failure Reply) : Decidable (result = .ok .done) :=
  match result with
  | .ok .done => isTrue rfl
  | .ok (.number _) | .ok (.entry _) | .ok (.numbers _) | .ok (.answer _) | .error _ => isFalse nofun

instance (i : Identity) (event : Event) : Decidable (event.Forgets i) := inferInstanceAs (Decidable (_ ∧ _ ∧ _))

end Event

/-! ## Acknowledged numbers -/

theorem Event.Leads.acknowledged (h : event.Leads s t) {n : Nat} (hn : event.acknowledged? i = some n) :
    i.Fits ∧ i.counterIn s < n ∧ n ≤ maxVersion ∧ i.counterIn t = n := by
  obtain ⟨content, hrequest, hresult⟩ := Event.of_acknowledged? hn
  have hstep := h.step
  rw [hrequest, hresult] at hstep
  obtain ⟨octets, -, -, hi, -, hlatest, rfl, rfl⟩ := hstep.of_number
  have hle := h.orderly.counterIn_le_latestIn hi
  exact ⟨hi, by omega, hlatest, counterIn_appendedIn hi hlatest⟩

/-- The numbers acknowledged while the descriptor is kept increase from the counter on. -/
theorem Trail.acknowledged (h : Trail s events t) (hkeeps : ∀ event ∈ events, event.Keeps i) :
    (∀ n ∈ events.filterMap (·.acknowledged? i), i.counterIn s < n ∧ n ≤ maxVersion) ∧
      (events.filterMap (·.acknowledged? i)).Pairwise (· < ·) := by
  induction h with
  | nil => simp
  | @cons s u t event rest h hrest ih =>
    obtain ⟨hevent, hkeeps⟩ := List.forall_mem_cons.1 hkeeps
    obtain ⟨habove, hascending⟩ := ih hkeeps
    have hi := fits_of_describedIn (hevent.describedIn h).1
    have hcounter := (h.change hevent).counterIn_le hi h.orderly
    have hlater : ∀ m ∈ rest.filterMap (·.acknowledged? i), i.counterIn s < m ∧ m ≤ maxVersion := fun m hm =>
      ⟨Nat.lt_of_le_of_lt hcounter (habove m hm).1, (habove m hm).2⟩
    cases hn : event.acknowledged? i with
    | none =>
      rw [List.filterMap_cons_none hn]
      exact ⟨hlater, hascending⟩
    | some n =>
      rw [List.filterMap_cons_some hn]
      obtain ⟨-, hless, hmax, hcounted⟩ := h.acknowledged hn
      refine ⟨List.forall_mem_cons.2 ⟨⟨hless, hmax⟩, hlater⟩, List.pairwise_cons.2 ⟨fun m hm => ?_, hascending⟩⟩
      rw [← hcounted]
      exact (habove m hm).1

/-- **Acknowledged numbers.** In a stretch in which an identity keeps its descriptor, the numbers that its appends end
with increase, from one on and as far as a row can hold them. No append of the run, whatever fails in it, takes a
version away or changes one; and one of some content without failures, where the latest number is the greatest that a
row can hold, is refused and changes nothing. -/
theorem acknowledged_ascending {store : Store} (hnew : store.IsNew) (i : Identity) {calls : List Call}
    {earlier stretch later : List Event} (hrun : history calls store = earlier ++ stretch ++ later)
    (hkeeps : ∀ event ∈ stretch, event.Keeps i) :
    (stretch.filterMap (·.acknowledged? i)).Pairwise (· < ·) ∧
      (∀ n ∈ stretch.filterMap (·.acknowledged? i), 1 ≤ n ∧ n ≤ 2 ^ 64 - 1) ∧
      (∀ event ∈ history calls store, ∀ j content, event.call.request = .append j content → event.KeepsVersions) ∧
      ∀ event ∈ history calls store, ∀ content, event.call.request = .append i (some content) → content ≠ [] →
        event.call.Calm → i.IsDescribed event.before → i.latestOf event.before = 2 ^ 64 - 1 →
          event.result = .error (.invalid (.versionOutOfRange (2 ^ 64))) ∧
            ∀ key, event.after.row? key = event.before.row? key := by
  obtain ⟨t, htrail, -, -⟩ := exists_trail calls Orderly.empty hnew.holds
  have hparts := htrail
  rw [hrun, List.append_assoc, Trail.append_iff] at hparts
  obtain ⟨s, -, hparts⟩ := hparts
  obtain ⟨u, hstretch, -⟩ := Trail.append_iff.1 hparts
  obtain ⟨habove, hascending⟩ := hstretch.acknowledged hkeeps
  refine ⟨hascending, fun n hn => ?_, fun event hevent j content hrequest k n octets hrow => ?_,
    fun event hevent content hrequest hne hcalm hd hlatest => ?_⟩
  · obtain ⟨hless, hmax⟩ := habove n hn
    exact ⟨by omega, hmax⟩
  · obtain ⟨v, w, hleads⟩ := htrail.leads_of_mem hevent
    have hstep := hleads.step
    rw [hrequest] at hstep
    rw [Identity.rowOf_eq hleads.before] at hrow
    rw [Identity.rowOf_eq hleads.after]
    exact hstep.version_kept_of_append hleads.orderly hrow
  · obtain ⟨v, w, hleads⟩ := htrail.leads_of_mem hevent
    rw [Identity.isDescribed_iff hleads.before] at hd
    rw [Identity.latestOf_eq hleads.orderly (fits_of_describedIn hd) hleads.before] at hlatest
    have hstep := hleads.step
    rw [hrequest] at hstep
    rcases hstep.append_of_calm hcalm hd hne with ⟨hless, -, -⟩ | ⟨-, hresult, rfl⟩
    · rw [hlatest] at hless
      exact absurd hless (Nat.lt_irrefl _)
    · refine ⟨hresult, fun key => ?_⟩
      rw [hleads.before.row?_eq, hleads.after.row?_eq]

/-- Two appends after an interrupted one. -/
def Sample.renumbered : List Call :=
  interrupted ++ [(Request.append orders (some [2])).calm, (Request.append orders (some [3])).calm]

/-- The number of the interrupted append is not acknowledged, and the next ones go on from it. -/
theorem acknowledged_ascending_renumbered :
    (∀ event ∈ (history Sample.renumbered (.memory .empty)).tail, event.Keeps Sample.orders) ∧
      (history Sample.renumbered (.memory .empty)).tail.filterMap (·.acknowledged? Sample.orders) = [2, 3] ∧
      ((history Sample.renumbered (.memory .empty)).tail.filterMap
        (·.acknowledged? Sample.orders)).Pairwise (· < ·) := by
  have hrun : history Sample.renumbered (.memory .empty) =
      [(Request.describe Sample.draft).calm.event (.memory .empty)] ++
        (history Sample.renumbered (.memory .empty)).tail ++ [] := (List.append_nil _).symm
  have hkeeps : ∀ event ∈ (history Sample.renumbered (.memory .empty)).tail, event.Keeps Sample.orders := by
    decide +kernel
  exact ⟨hkeeps, by decide +kernel, (acknowledged_ascending .memory Sample.orders hrun hkeeps).1⟩

/-! ## Contents of a number -/

/-- What a reader gets is what is stored. -/
theorem Event.Leads.revealed (h : event.Leads s t) {n : Int} {content : Bytes}
    (h' : event.revealed? i = some (n, content)) :
    i.row? s (.version n) = some content ∧ t = s := by
  obtain ⟨number, entry, hrequest, hresult, rfl, rfl⟩ := Event.revealed?_eq_some_iff.1 h'
  have hstep := h.step
  rw [hrequest, hresult] at hstep
  cases hstep with
  | told hi hd hselect => exact ⟨(h.orderly.mem_versionsIn hi).1 (mem_of_selectVersion hselect), rfl⟩

/-- Where nothing is forgotten, the latest number never falls and no number up to it gets a new content. -/
theorem Trail.version_of_le (h : Trail s events t) (hi : i.Fits) (hs : Orderly s)
    (hkeeps : ∀ event ∈ events, event.Keeps i) (hforgets : ∀ event ∈ events, ¬event.Forgets i) :
    i.latestIn s ≤ i.latestIn t ∧ ∀ (n : Nat) content, n ≤ i.latestIn s → i.row? t (.version n) = some content →
      i.row? s (.version n) = some content := by
  induction h with
  | nil => exact ⟨Nat.le_refl _, fun _ _ _ h => h⟩
  | @cons s u t event rest h hrest ih =>
    obtain ⟨hevent, hkeeps⟩ := List.forall_mem_cons.1 hkeeps
    obtain ⟨hremembers, hforgets⟩ := List.forall_mem_cons.1 hforgets
    have hu := h.step.orderly hs
    obtain ⟨hle, hold⟩ := ih hu hkeeps hforgets
    have hchange := h.change hevent
    have hstep : i.latestIn s ≤ i.latestIn u := by
      refine (hchange.latestIn_le hi hs hu).resolve_right ?_
      rintro ⟨hless, hrequest, hresult⟩
      rw [Event.Forgets, Identity.counterOf_eq hs hi h.before, Identity.latestOf_eq hs hi h.before] at hremembers
      exact hremembers ⟨hless, hrequest, hresult⟩
    refine ⟨Nat.le_trans hstep hle, fun n content hn hrow => ?_⟩
    exact hchange.version_of_le hi hn (hold n content (Nat.le_trans hn hstep) hrow)

/-- Two readers of a number get one content, if nothing is forgotten. -/
theorem Trail.same_content (h : Trail s events t) (hs : Orderly s) (hkeeps : ∀ event ∈ events, event.Keeps i)
    (hforgets : ∀ event ∈ events, ¬event.Forgets i) :
    events.Pairwise fun a b => ∀ n c d, a.revealed? i = some (n, c) → b.revealed? i = some (n, d) → c = d := by
  induction h with
  | nil => exact .nil
  | @cons s u t event rest h hrest ih =>
    obtain ⟨hevent, hkeepsRest⟩ := List.forall_mem_cons.1 hkeeps
    obtain ⟨hremembers, hforgetsRest⟩ := List.forall_mem_cons.1 hforgets
    refine List.pairwise_cons.2 ⟨fun b hb n c d hc hd => ?_, ih (h.step.orderly hs) hkeepsRest hforgetsRest⟩
    obtain ⟨before, after, rfl⟩ := List.append_of_mem hb
    obtain ⟨v, hbefore, hafter⟩ := append_iff.1 hrest
    obtain ⟨w, hb', -⟩ := cons_iff.1 hafter
    obtain ⟨hrow, -⟩ := h.revealed hc
    obtain ⟨hrow', -⟩ := hb'.revealed hd
    obtain ⟨m, rfl, -, -, -⟩ := hs.number_of_row? hrow
    have hi := Identity.fits_of_row? hrow
    have hm := hs.le_latestIn (by rw [hrow]; simp)
    have htrail : Trail s (event :: before) v := .cons h hbefore
    have hpart : ∀ a ∈ event :: before, a ∈ event :: (before ++ b :: after) := by
      intro a ha
      rcases List.mem_cons.1 ha with rfl | ha
      · exact List.mem_cons_self
      · exact List.mem_cons_of_mem _ (List.mem_append_left _ ha)
    obtain ⟨-, hold⟩ := htrail.version_of_le hi hs (fun a ha => hkeeps a (hpart a ha))
      fun a ha => hforgets a (hpart a ha)
    have := hold m d hm hrow'
    rw [hrow] at this
    exact Option.some.inj this

/-! ## A number with two contents -/

/-- Appends without failures, one after the other, reach every number from the latest one on. -/
theorem exists_appends (k : Nat) {store : Store} {content : Bytes} (hs : Orderly s) (hholds : store.Holds s)
    (hd : i.DescribedIn s) (hk : i.latestIn s + k ≤ maxVersion) (hne : content ≠ []) :
    ∃ t, (afterCalls (List.replicate k (Request.append i (some content)).calm) store).Holds t ∧ Orderly t ∧
      i.DescribedIn t ∧ i.latestIn t = i.latestIn s + k ∧
        (k ≠ 0 → i.row? t (.version (i.latestIn s + k : Nat)) = some content) := by
  induction k generalizing store s with
  | zero => exact ⟨s, hholds, hs, hd, rfl, fun h => absurd rfl h⟩
  | succ k ih =>
    have hi := fits_of_describedIn hd
    have hlatest : i.latestIn s < maxVersion := by omega
    obtain ⟨u, hleads⟩ := (Request.append i (some content)).calm.exists_leads hs hholds
    rcases hleads.step.append_of_calm (Request.calm_calm _) hd hne with ⟨-, -, rfl⟩ | ⟨hfull, -⟩
    swap
    · omega
    have hu : Orderly (i.appendedIn s content) := hs.appendedIn hlatest hne
    have hd' : i.DescribedIn (i.appendedIn s content) := describedIn_appendedIn hi hlatest hd
    have hlatest' : i.latestIn (i.appendedIn s content) = i.latestIn s + 1 := latestIn_appendedIn hs hi hlatest hne
    obtain ⟨t, ht, hot, hdt, hlt, hrow⟩ := ih hu hleads.after hd' (by omega)
    refine ⟨t, ht, hot, hdt, by omega, fun _ => ?_⟩
    by_cases hzero : k = 0
    · subst hzero
      obtain rfl := ht.unique hleads.after
      rw [row?_appendedIn hi hlatest, if_neg (by simp), if_pos ⟨rfl, rfl⟩]
    · have hnumber : i.latestIn s + (k + 1) = i.latestIn s + 1 + k := by omega
      rw [hnumber, ← hlatest']
      exact hrow hzero

/-- **A number that was never counted can be given to a second content.** Without any further failure the version with
it is read and erased, and then other contents are appended until the number has come round. -/
theorem exists_second_content {store : Store} (hs : Orderly s) (hholds : store.Holds s) (hd : i.DescribedIn s)
    (hless : i.counterIn s < i.latestIn s) :
    ∃ more : List Call, (∀ call ∈ more, call.Calm) ∧ (∀ event ∈ history more store, event.Keeps i) ∧
      ∃ n c d, c ≠ d ∧ (∃ a ∈ history more store, a.revealed? i = some (n, c)) ∧
        ∃ b ∈ history more store, b.revealed? i = some (n, d) := by
  have hi := fits_of_describedIn hd
  have hmax := hs.latestIn_le hi
  obtain ⟨c, hrow⟩ := Option.ne_none_iff_exists'.1 ((hs.latestIn_eq_or hi).resolve_left (by omega))
  -- The version is read, and then it is erased.
  obtain ⟨hreveals, hread⟩ := revealed?_of_calm hs hholds hd hrow
  obtain ⟨u, herase⟩ := (Request.eraseVersion i (i.latestIn s : Nat)).calm.exists_leads hs hread
  obtain ⟨-, rfl⟩ := herase.step.eraseVersion_of_calm (Request.calm_calm _) hd hs (by rw [hrow]; simp)
  have hfree := latestIn_eraseRow_lt hs hi hless
  -- Its number is reached again by appends of another content, which is then read.
  obtain ⟨k, hk⟩ := Nat.exists_eq_add_of_lt hfree
  obtain ⟨w, hw, how, hdw, -, hroww⟩ := exists_appends (k + 1) hs.eraseRow herase.after
    (describedIn_eraseRow_version hd) (by omega) (List.cons_ne_nil 0 c)
  have hagain := hroww (by omega)
  rw [← Nat.add_assoc, ← hk] at hagain
  obtain ⟨hreveals', -⟩ := revealed?_of_calm how hw hdw hagain
  obtain ⟨more, hmore⟩ : ∃ more, more = (Request.entry i (some (i.latestIn s : Nat))).calm ::
      (Request.eraseVersion i (i.latestIn s : Nat)).calm ::
        (List.replicate (k + 1) (Request.append i (some (0 :: c))).calm ++
          [(Request.entry i (some (i.latestIn s : Nat))).calm]) := ⟨_, rfl⟩
  have hcalls : ∀ call ∈ more, call.Calm ∧ call.request ≠ .erase i := by
    intro call hcall
    rw [hmore] at hcall
    simp only [List.mem_cons, List.mem_append, List.mem_replicate, List.not_mem_nil, or_false] at hcall
    rcases hcall with rfl | rfl | ⟨-, rfl⟩ | rfl
    all_goals exact ⟨Request.calm_calm _, by simp [Request.calm]⟩
  obtain ⟨x, htrail, -, -⟩ := exists_trail more hs hholds
  obtain ⟨hkeeps, -⟩ := htrail.keeps hd fun event hevent => (hcalls _ (call_mem_of_mem_history hevent)).2
  refine ⟨more, fun call hcall => (hcalls call hcall).1, hkeeps, i.latestIn s, c, 0 :: c, by simp,
    ⟨_, ?_, hreveals⟩, ⟨_, ?_, hreveals'⟩⟩
  · rw [hmore]
    exact List.mem_cons_self
  · rw [hmore]
    simp [history, history_append]

/-- Where something is forgotten, a number that was never counted was there to be forgotten. -/
theorem Event.Leads.forgets (h : event.Leads s t) (hforgets : event.Forgets i) :
    i.DescribedIn s ∧ i.counterIn s < i.latestIn s := by
  obtain ⟨hless, hrequest, hresult⟩ := hforgets
  have hstep := h.step
  rw [hrequest, hresult] at hstep
  cases hstep with
  | versionErased hi hd hrow =>
    rw [Identity.counterOf_eq h.orderly hi h.before, Identity.latestOf_eq h.orderly hi h.before] at hless
    exact ⟨hd, hless⟩

/-- **One content for a number.** In a stretch in which an identity keeps its descriptor, all who read a version get the
same content, as long as no version is erased that was the highest and was never counted. Wherever such a version is
erased, there was a way on, without any failure, on which two readers get different contents under one number. -/
theorem contents_agree {store : Store} (hnew : store.IsNew) (i : Identity) :
    (∀ (calls : List Call) (earlier stretch later : List Event),
      history calls store = earlier ++ stretch ++ later → (∀ event ∈ stretch, event.Keeps i) →
        (∀ event ∈ stretch, ¬event.Forgets i) →
          ∀ a ∈ stretch, ∀ b ∈ stretch, ∀ n c d, a.revealed? i = some (n, c) → b.revealed? i = some (n, d) → c = d) ∧
      ∀ (calls : List Call) (call : Call), (call.event (afterCalls calls store)).Forgets i →
        ∃ more : List Call, (∀ call ∈ more, call.Calm) ∧
          (∀ event ∈ history more (afterCalls calls store), event.Keeps i) ∧
            ∃ n c d, c ≠ d ∧ (∃ a ∈ history more (afterCalls calls store), a.revealed? i = some (n, c)) ∧
              ∃ b ∈ history more (afterCalls calls store), b.revealed? i = some (n, d) := by
  constructor
  · intro calls earlier stretch later hrun hkeeps hforgets
    obtain ⟨t, htrail, -, -⟩ := exists_trail calls Orderly.empty hnew.holds
    rw [hrun, List.append_assoc, Trail.append_iff] at htrail
    obtain ⟨s, hearlier, hrest⟩ := htrail
    obtain ⟨u, hstretch, -⟩ := Trail.append_iff.1 hrest
    have hagree := hstretch.same_content (hearlier.orderly Orderly.empty) hkeeps hforgets
    refine fun a ha b hb => List.Pairwise.forall_of_forall_of_flip ?_ hagree ?_ ha hb
    · intro e _ n c d hc hd
      rw [hc] at hd
      cases hd
      rfl
    · exact hagree.imp fun h n c d hc hd => (h n d c hd hc).symm
  · intro calls call hforgets
    obtain ⟨s, -, hs, hholds⟩ := exists_trail calls Orderly.empty hnew.holds
    obtain ⟨t, hleads⟩ := call.exists_leads hs hholds
    obtain ⟨hd, hless⟩ := hleads.forgets hforgets
    exact exists_second_content hs hholds hd hless

/-- The version of an interrupted append is read before and after another one is appended and erased. -/
def Sample.reread : List Call :=
  interrupted ++ [(Request.entry orders (some 1)).calm, (Request.append orders (some [2])).calm,
    (Request.eraseVersion orders 2).calm, (Request.entry orders (some 1)).calm]

/-- Erasing a version that was counted forgets nothing, and both readers of the interrupted append get one content;
erasing the version of the interrupted append itself forgets its number. -/
theorem contents_agree_orders :
    ((∀ event ∈ (history Sample.reread (.memory .empty)).tail,
        event.Keeps Sample.orders ∧ ¬event.Forgets Sample.orders) ∧
      ∀ a ∈ (history Sample.reread (.memory .empty)).tail, ∀ b ∈ (history Sample.reread (.memory .empty)).tail,
        ∀ n c d, a.revealed? Sample.orders = some (n, c) → b.revealed? Sample.orders = some (n, d) → c = d) ∧
      ((Request.eraseVersion Sample.orders 1).calm.event (afterCalls Sample.interrupted (.memory .empty))).Forgets
        Sample.orders ∧
      ∃ more : List Call, (∀ call ∈ more, call.Calm) ∧
        (∀ event ∈ history more (afterCalls Sample.interrupted (.memory .empty)), event.Keeps Sample.orders) ∧
          ∃ n c d, c ≠ d ∧
            (∃ a ∈ history more (afterCalls Sample.interrupted (.memory .empty)),
              a.revealed? Sample.orders = some (n, c)) ∧
            ∃ b ∈ history more (afterCalls Sample.interrupted (.memory .empty)),
              b.revealed? Sample.orders = some (n, d) := by
  have hkeeps : ∀ event ∈ (history Sample.reread (.memory .empty)).tail,
      event.Keeps Sample.orders ∧ ¬event.Forgets Sample.orders := by decide +kernel
  have hrun : history Sample.reread (.memory .empty) =
      [(Request.describe Sample.draft).calm.event (.memory .empty)] ++
        (history Sample.reread (.memory .empty)).tail ++ [] := (List.append_nil _).symm
  have hforgets : ((Request.eraseVersion Sample.orders 1).calm.event
      (afterCalls Sample.interrupted (.memory .empty))).Forgets Sample.orders := by decide +kernel
  obtain ⟨hagree, hforgotten⟩ := contents_agree .memory Sample.orders
  exact ⟨⟨hkeeps, hagree _ _ _ _ hrun (fun event h => (hkeeps event h).1) fun event h => (hkeeps event h).2⟩,
    hforgets, hforgotten _ _ hforgets⟩

/-- The version of an interrupted append is read and erased, and another content is appended and read. -/
def Sample.reused : List Call :=
  interrupted ++ [(Request.entry orders (some 1)).calm, (Request.eraseVersion orders 1).calm,
    (Request.append orders (some [2])).calm, (Request.entry orders (some 1)).calm]

/-- Without the condition the law fails: the interrupted append stores `[1]` as version 1, which is read and erased, and
the next append stores `[2]` as version 1. -/
theorem not_contents_agree : ¬∀ (calls : List Call) (earlier stretch later : List Event),
    history calls (.memory .empty) = earlier ++ stretch ++ later → (∀ event ∈ stretch, event.Keeps Sample.orders) →
      ∀ a ∈ stretch, ∀ b ∈ stretch, ∀ n c d, a.revealed? Sample.orders = some (n, c) →
        b.revealed? Sample.orders = some (n, d) → c = d := by
  intro h
  obtain ⟨a, ha, hone⟩ : ∃ a ∈ (history Sample.reused (.memory .empty)).tail,
      a.revealed? Sample.orders = some (1, [1]) := by decide +kernel
  obtain ⟨b, hb, htwo⟩ : ∃ b ∈ (history Sample.reused (.memory .empty)).tail,
      b.revealed? Sample.orders = some (1, [2]) := by decide +kernel
  have hkeeps : ∀ event ∈ (history Sample.reused (.memory .empty)).tail, event.Keeps Sample.orders := by
    decide +kernel
  have hrun : history Sample.reused (.memory .empty) =
      [(Request.describe Sample.draft).calm.event (.memory .empty)] ++
        (history Sample.reused (.memory .empty)).tail ++ [] := (List.append_nil _).symm
  have := h Sample.reused _ _ _ hrun hkeeps a ha b hb 1 [1] [2] hone htwo
  exact absurd this (by decide)

end Schemata.Catalog

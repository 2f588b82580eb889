import Schemata.Proofs.Catalog.Calls
import Schemata.Proofs.Catalog.Durability

/-!
# Appends that fail

An append asks five commands: it looks at the descriptor, the counter and the versions, writes the row of the version
and then the counter. One of them is struck (`Script.strike`).

- Struck at one of the first four, the append leaves the contents as they are; struck at the fifth, it leaves the
  version in its row, not counted (`append_on_strike`).
- So a failed append has no visible effect unless it was the counter that could not be written; then its content can be
  read under the number that it was to have, and the next append gets another number (`failed_append_invisible`).
-/

namespace Schemata.Table

/-- Lets some commands pass and fails the next one. -/
def Script.strike (passed : Nat) (trouble : Trouble) (later : Script) : Script :=
  List.replicate passed none ++ some trouble :: later

end Schemata.Table

namespace Schemata.Catalog

open Table (Contents Script Store Trouble)

/-! ## Works of one command behind a strike -/

namespace Work

variable {α β : Type} {x : Work α} {f : α → Work β} {s u : Contents} {a : α} {passed : Nat} {trouble : Trouble}
  {later : Script}

theorem Asks.on_pass (hx : x.Asks s a u) (rest : Script) : x.on (none :: rest) s = (.ok a, rest, u) := by
  obtain ⟨command, g, rfl, hg, rfl⟩ := hx
  rw [on_bind_ok on_ask_pass, hg, on_pure]

theorem Asks.on_fail (hx : x.Asks s a u) (trouble : Trouble) (rest : Script) :
    x.on (some trouble :: rest) s = (.error (.table trouble), rest, s) := by
  obtain ⟨command, g, rfl, hg, rfl⟩ := hx
  exact on_bind_error on_ask_fail

/-- A strike hits the first command or is one command nearer for what follows. -/
theorem Asks.bind_on_strike (hx : x.Asks s a u) : (x >>= f).on (.strike passed trouble later) s =
    match passed with
    | 0 => (.error (.table trouble), later, s)
    | rest + 1 => (f a).on (.strike rest trouble later) u := by
  cases passed with
  | zero => exact on_bind_error (hx.on_fail trouble later)
  | succ rest => exact on_bind_ok (hx.on_pass _)

end Work

/-! ## Struck appends -/

section Append

open Work

variable {i : Identity} {s t : Contents} {content : Bytes} {passed : Nat} {trouble : Trouble} {later rest : Script}

/-- The ways in which an append ends whose command after the passed ones is struck: nothing was changed; the version's
row was written; or it was not a failure of the table that ended it. -/
inductive StruckAppend (i : Identity) (s : Contents) (content : Bytes) (passed : Nat) (trouble : Trouble) :
    Except Failure Nat → Contents → Prop
  | early (hpassed : passed < 4) : StruckAppend i s content passed trouble (.error (.registry .add i trouble)) s
  | late (hpassed : passed = 4) (hd : i.DescribedIn s) (hlatest : i.latestIn s < maxVersion) :
    StruckAppend i s content passed trouble (.error (.registry .add i trouble)) (i.storedIn s content)
  | otherwise {r t} (hr : ∀ activity j cause, r ≠ .error (.registry activity j cause)) :
    StruckAppend i s content passed trouble r t

-- Otherwise numbers would be compared with 2 ^ 64 step by step.
attribute [local irreducible] maxVersion

theorem append_on_strike (hs : Orderly s) (hne : content ≠ []) {r : Except Failure Nat}
    (h : (append i (some content)).on (.strike passed trouble later) s = (r, rest, t)) :
    StruckAppend i s content passed trouble r t := by
  have hc : checkContent (some content) = .ok content := by
    obtain ⟨first, octets, rfl⟩ := List.exists_cons_of_ne_nil hne
    rfl
  rw [append, Rows.checked_bind_ok hc, on_within_bind fun _ _ _ => rfl] at h
  obtain ⟨r', hbody, rfl⟩ := h
  rcases fits_or_stem_error i with hi | ⟨reason, hstem⟩
  swap
  · rw [descriptorOf_of_stem_error hstem, throw_bind, on_throw] at hbody
    cases hbody
    exact .otherwise fun _ _ _ he => by cases he
  rw [descriptorOf, bind_assoc, (Rows.asks_descriptor? hs hi).bind_on_strike] at hbody
  rcases passed with _ | passed
  · cases hbody
    exact .early (by omega)
  cases hdescriptor : i.descriptorIn s with
  | none =>
    simp only [hdescriptor] at hbody
    cases hbody
    exact .otherwise fun _ _ _ he => by cases he
  | some descriptor =>
    have hd := hs.describedIn_of hdescriptor
    simp only [hdescriptor, pure_bind, (Rows.asks_counter hs hi).bind_on_strike] at hbody
    rcases passed with _ | passed
    · cases hbody
      exact .early (by omega)
    simp only [(Rows.asks_versions hs hi).bind_on_strike] at hbody
    rcases passed with _ | passed
    · cases hbody
      exact .early (by omega)
    simp only [Identity.nextVersion_eq] at hbody
    by_cases hlatest : i.latestIn s < maxVersion
    swap
    · have hfull : i.latestIn s = maxVersion := Nat.le_antisymm (hs.latestIn_le hi) (Nat.le_of_not_lt hlatest)
      rw [hfull, Rows.put_of_error (Identity.key_version_of_gt (by omega)), fail, worded_beyond_maxVersion,
        throw_bind, on_throw] at hbody
      cases hbody
      exact .otherwise fun _ _ _ he => by cases he
    have hnext : i.latestIn s + 1 ≤ maxVersion := hlatest
    simp only [(Rows.asks_put (Identity.key_version hi hnext)).bind_on_strike] at hbody
    rcases passed with _ | passed
    · cases hbody
      exact .early (by omega)
    simp only [(Rows.asks_putCounter hi hnext).bind_on_strike] at hbody
    rcases passed with _ | passed
    · cases hbody
      exact .late rfl hd hlatest
    · cases hbody
      exact .otherwise fun _ _ _ he => by cases he

/-- The same as a call on a table. -/
theorem event_append_on_strike {store : Store} (hs : Orderly s) (hholds : store.Holds s) (hne : content ≠ [])
    {event : Event} (hevent : event = Call.event ⟨.append i (some content), .strike passed trouble later⟩ store) :
    ∃ r t, event.result = r.map .number ∧ event.after.Holds t ∧ StruckAppend i s content passed trouble r t := by
  obtain ⟨hresult, hafter⟩ := Call.event_eq ⟨.append i (some content), .strike passed trouble later⟩ hholds
  subst hevent
  rw [Call.on, Request.work, on_bind] at hresult hafter
  rcases hends : (append i (some content)).on (.strike passed trouble later) s with ⟨failure | n, rest, t⟩
  · rw [hends] at hresult hafter
    exact ⟨.error failure, t, hresult, hafter, append_on_strike hs hne hends⟩
  · rw [hends] at hresult hafter
    exact ⟨.ok n, t, hresult, hafter, append_on_strike hs hne hends⟩

end Append

/-! ## Visible effects -/

section Visible

variable {i : Identity} {s : Contents} {content other : Bytes}

theorem describedIn_storedIn (hd : i.DescribedIn s) (hlatest : i.latestIn s < maxVersion) :
    i.DescribedIn (i.storedIn s content) := by
  rw [Identity.DescribedIn, row?_storedIn (fits_of_describedIn hd) hlatest]
  simpa [Identity.DescribedIn] using hd

/-- A next append gets the number after the latest one, if there is one left. -/
theorem acknowledged?_of_calm {store : Store} (hs : Orderly s) (hholds : store.Holds s) (hd : i.DescribedIn s)
    (hne : other ≠ []) : ((Request.append i (some other)).calm.event store).acknowledged? i =
      if i.latestIn s < maxVersion then some (i.latestIn s + 1) else none := by
  obtain ⟨t, hleads⟩ := (Request.append i (some other)).calm.exists_leads hs hholds
  rcases hleads.step.append_of_calm (Request.calm_calm _) hd hne with ⟨hless, hresult, -⟩ | ⟨hfull, hresult, -⟩
  · rw [if_pos hless, Event.acknowledged?, hresult]
    exact if_pos rfl
  · rw [hfull, if_neg (Nat.lt_irrefl _), Event.acknowledged?, hresult]
    rfl

/-- **Failed appends.** In a run with any failures, let an append of some content be ended by a failure of the table, at
the command after the passed ones. If that is not the fifth one, which writes the counter, then all later calls are
answered as if the append had not been made. If it is, then the content has the number that it was to have: the number
had no content before and is read with the content after, and a next append, which would have got it, does not. -/
theorem failed_append_invisible {store : Store} (hnew : store.IsNew) (calls : List Call) (hne : content ≠ [])
    {passed : Nat} {trouble : Trouble} {later : Script} {event : Event}
    (hevent : event =
      Call.event ⟨.append i (some content), .strike passed trouble later⟩ (afterCalls calls store))
    {activity : Activity} {j : Identity} {cause : Trouble}
    (hfailed : event.result = .error (.registry activity j cause)) :
    (passed ≠ 4 → ∀ more : List Call,
      (history more event.after).map (·.result) = (history more event.before).map (·.result)) ∧
    (passed = 4 → ∃ n : Nat,
      ((Request.entry i (some n)).calm.event event.before).result = .error (.missing (.version i n)) ∧
        ((Request.entry i (some n)).calm.event event.after).revealed? i = some ((n : Int), content) ∧
          ∀ other, other ≠ [] →
            ((Request.append i (some other)).calm.event event.before).acknowledged? i = some n ∧
              ((Request.append i (some other)).calm.event event.after).acknowledged? i ≠ some n) := by
  obtain ⟨s, -, hs, hholds⟩ := exists_trail calls Orderly.empty hnew.holds
  obtain ⟨r, t, hresult, hafter, hstruck⟩ := event_append_on_strike hs hholds hne hevent
  have hbefore : event.before.Holds s := by rwa [hevent]
  rw [hresult] at hfailed
  cases hstruck with
  | early hpassed => exact ⟨fun _ more => history_congr more hafter hbefore, fun h => by omega⟩
  | otherwise hr =>
    cases r with
    | ok n => cases hfailed
    | error failure =>
      cases hfailed
      exact absurd rfl (hr activity j cause)
  | late hpassed hd hlatest =>
    have ht : Orderly (i.storedIn s content) := hs.storedIn hne
    have hd' : i.DescribedIn (i.storedIn s content) := describedIn_storedIn hd hlatest
    have hrow : i.row? (i.storedIn s content) (.version (i.latestIn s + 1 : Nat)) = some content := by
      rw [row?_storedIn (fits_of_describedIn hd) hlatest, if_pos ⟨rfl, rfl⟩]
    refine ⟨fun h => absurd hpassed h, fun _ => ⟨i.latestIn s + 1, ?_, ?_, fun other hother => ⟨?_, ?_⟩⟩⟩
    · obtain ⟨u, hleads⟩ := (Request.entry i (some (i.latestIn s + 1 : Nat))).calm.exists_leads hs hbefore
      exact hleads.step.entry_missing_of_calm (Request.calm_calm _) hd hs hs.row?_next
        (Nat.le_trans (Nat.succ_le_succ (Nat.le_of_lt hlatest)) (Nat.le_of_eq maxVersion_succ))
    · exact (revealed?_of_calm ht hafter hd' hrow).1
    · rw [acknowledged?_of_calm hs hbefore hd hother, if_pos hlatest]
    · rw [acknowledged?_of_calm ht hafter hd' hother]
      have hle := ht.le_latestIn (by rw [hrow]; simp)
      split
      · simp only [ne_eq, Option.some.injEq]
        omega
      · simp

end Visible

instance (result : Except Failure Reply) (activity : Activity) (i : Identity) (cause : Trouble) :
    Decidable (result = .error (.registry activity i cause)) :=
  match result with
  | .error (.registry a j c) => decidable_of_iff (a = activity ∧ j = i ∧ c = cause) (by simp)
  | .error (.invalid _) | .error (.missing _) | .error (.table _) | .error .counterOutOfRange
  | .error .unwritable | .error (.undecodable _) | .error (.unexpected _) | .ok _ => isFalse nofun

/-- The counter of an append cannot be written. -/
def Sample.uncounted : Call := ⟨.append orders (some [2]), .strike 4 ⟨"disk full"⟩ []⟩

/-- The version cannot be written. -/
def Sample.unwritten : Call := ⟨.append orders (some [2]), .strike 3 ⟨"disk full"⟩ []⟩

/-- After an upload, an append whose version cannot be written leaves everything as it was, and one whose counter cannot
be written leaves its content as version 2. -/
theorem failed_append_invisible_orders :
    ((Sample.unwritten.event (afterCalls Sample.uploaded (.memory .empty))).result =
        .error (.registry .add Sample.orders ⟨"disk full"⟩) ∧
      ∀ more : List Call,
        (history more (Sample.unwritten.event (afterCalls Sample.uploaded (.memory .empty))).after).map (·.result) =
          (history more (afterCalls Sample.uploaded (.memory .empty))).map (·.result)) ∧
    (Sample.uncounted.event (afterCalls Sample.uploaded (.memory .empty))).result =
        .error (.registry .add Sample.orders ⟨"disk full"⟩) ∧
      ∃ n : Nat, ((Request.entry Sample.orders (some n)).calm.event
        (Sample.uncounted.event (afterCalls Sample.uploaded (.memory .empty))).after).revealed? Sample.orders =
          some ((n : Int), [2]) := by
  have hunwritten : (Sample.unwritten.event (afterCalls Sample.uploaded (.memory .empty))).result =
      .error (.registry .add Sample.orders ⟨"disk full"⟩) := by decide +kernel
  have huncounted : (Sample.uncounted.event (afterCalls Sample.uploaded (.memory .empty))).result =
      .error (.registry .add Sample.orders ⟨"disk full"⟩) := by decide +kernel
  refine ⟨⟨hunwritten, ?_⟩, huncounted, ?_⟩
  · exact (failed_append_invisible .memory Sample.uploaded (by simp) rfl hunwritten).1 (by decide)
  · obtain ⟨n, -, hreveals, -⟩ := (failed_append_invisible .memory Sample.uploaded (by simp) rfl huncounted).2 rfl
    exact ⟨n, hreveals⟩

/-- Without the condition the law fails: after an append whose counter cannot be written, readers see one version more
than before it, and a next append gets the number 3 where it would have got 2. -/
theorem not_failed_append_invisible : ¬∀ (calls : List Call) (i : Identity) (content : Bytes) (script : Script)
    (cause : Trouble), content ≠ [] →
      (Call.event ⟨.append i (some content), script⟩ (afterCalls calls (.memory .empty))).result =
        .error (.registry .add i cause) →
      (∀ (j : Identity) (request : Request),
        (request = .numbers j ∨ request = .contains j ∨ ∃ number, request = .entry j number) →
        (request.calm.event
          (Call.event ⟨.append i (some content), script⟩ (afterCalls calls (.memory .empty))).after).result =
        (request.calm.event (afterCalls calls (.memory .empty))).result) ∧
      ∀ other, other ≠ [] → ((Request.append i (some other)).calm.event
          (Call.event ⟨.append i (some content), script⟩ (afterCalls calls (.memory .empty))).after).acknowledged? i =
        ((Request.append i (some other)).calm.event (afterCalls calls (.memory .empty))).acknowledged? i := by
  intro h
  have hfailed : (Sample.uncounted.event (afterCalls Sample.uploaded (.memory .empty))).result =
      .error (.registry .add Sample.orders ⟨"disk full"⟩) := by decide +kernel
  have hsame := (h Sample.uploaded Sample.orders [2] _ ⟨"disk full"⟩ (by simp) hfailed).2 [3] (by simp)
  exact absurd hsame (by decide +kernel)

end Schemata.Catalog

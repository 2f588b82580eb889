import Schemata.Proofs.Catalog.Calls
import Schemata.Proofs.Catalog.Exclusion
import Schemata.Proofs.Catalog.Isolation

/-!
# Calls side by side have an order

Calls that take the lock of their identity run side by side, with any failures, their commands interleaved in any way
that the locks allow. They come out as if they had been made one at a time, in the order in which they got their locks
(`Callers.acquisitions`).

The calls with a lock so far are made one at a time on contents `u`, each as a whole when it gets its lock, while the
table holds `s`. What is kept (`Serial`): `s` and `u` agree on the keys of everyone who is not inside, and who is inside
has left to do, from `s`, what leads to its result and to its keys in `u`. Since nobody else's commands touch these
keys, they change neither (`Standing.frame`).
-/

namespace Schemata.Catalog

open Table (Contents Program Script Store)

/-- The caller of a call at some stage before the first step of its program. -/
def Call.ready (call : Call) (stage : Stage) : Caller (Except Failure Reply) := { call.locked with stage }

/-! ## The order of locks -/

namespace Callers

variable {σ α : Type} {backend : Table.Backend σ} {system : Callers σ α} {number : Nat}

/-- The next step of a caller gives it its lock. -/
def acquires (system : Callers σ α) (number : Nat) : Bool :=
  match system.callers[number]? with
  | some ⟨_, .waiting lock, _, _⟩ => (system.locks.acquire lock number).isSome
  | _ => false

/-- The callers that get a lock in a run, in the order in which they do. -/
def acquisitions (backend : Table.Backend σ) : List Nat → Callers σ α → List Nat
  | [], _ => []
  | number :: rest, system =>
    (if system.acquires number then [number] else []) ++
      acquisitions backend rest ((system.step backend number).getD system)

/-- A caller that can take no step gets no lock. -/
theorem acquires_of_step_eq_none (h : system.step backend number = none) : system.acquires number = false := by
  rw [step.eq_def] at h
  rw [acquires.eq_def]
  split
  · rename_i hcaller
    rw [hcaller] at h
    simpa using h
  · rfl

theorem acquires_eq_false {caller : Caller α} (h : system.callers[number]? = some caller)
    (hstage : ∀ lock, caller.stage ≠ .waiting lock) : system.acquires number = false := by
  rw [acquires.eq_def]
  split
  · rename_i hcaller
    cases hcaller.symm.trans h
    exact absurd rfl (hstage _)
  · rfl

theorem acquires_eq_true {identity : Identity} {lock : Nat} {program : Program α} {script : Script} {locks : Locks}
    (h : system.callers[number]? = some ⟨identity, .waiting lock, program, script⟩)
    (hacquire : system.locks.acquire lock number = some locks) : system.acquires number = true := by
  rw [acquires, h]
  simp [hacquire]

end Callers

/-! ## Callers and their calls -/

/-- What is left of a caller's program, run on contents. -/
def Caller.rest {α : Type} (caller : Caller α) (s : Contents) : Table.Outcome (Script × Contents) α :=
  caller.program.run (Contents.backend.guarded Script.judge) (caller.script, s)

/-- How a call's caller stands when the contents are `s` and would be `u` after the calls of the order. -/
inductive Standing (order : List Nat) (s u : Contents) (number : Nat) (call : Call) :
    Caller (Except Failure Reply) → Prop
  | unbegun {stage} (hstage : stage = .outside ∨ ∃ lock, stage = .waiting lock) (h : number ∉ order) :
      Standing order s u number call (call.ready stage)
  | begun {lock program script} (h : number ∈ order) (hconfined : program.Confined call.request.identity.Owns)
      (hrest : Contents.AgreeOn call.request.identity.Owns
        (Caller.rest ⟨call.request.identity, .inside lock, program, script⟩ s).state.2 u) :
      Standing order s u number call ⟨call.request.identity, .inside lock, program, script⟩
  | ended {stage value script} (hstage : stage = .through ∨ ∃ lock, stage = .leaving lock) (h : number ∈ order) :
      Standing order s u number call ⟨call.request.identity, stage, .done value, script⟩

/-- A caller holds its lock and runs its program. -/
def Caller.Inside {α : Type} (caller : Caller α) : Prop := ∃ lock, caller.stage = .inside lock

namespace Standing

variable {order order' : List Nat} {s s' u u' : Contents} {number : Nat} {call : Call}
  {caller : Caller (Except Failure Reply)}

theorem identity_eq (h : Standing order s u number call caller) : caller.identity = call.request.identity := by
  cases h <;> rfl

/-- Who runs its program holds its lock. -/
theorem begun_of_runs (h : Standing order s u number call caller) (hruns : caller.stage.runs) :
    caller.Inside ∧ number ∈ order ∧ caller.program.Confined call.request.identity.Owns ∧
      Contents.AgreeOn call.request.identity.Owns (caller.rest s).state.2 u := by
  cases h with
  | unbegun hstage => rcases hstage with rfl | ⟨_, rfl⟩ <;> cases hruns
  | @begun lock _ _ h hconfined hrest => exact ⟨⟨lock, rfl⟩, h, hconfined, hrest⟩
  | ended hstage => rcases hstage with rfl | ⟨_, rfl⟩ <;> cases hruns

theorem mem_of_through (h : Standing order s u number call caller) (hstage : caller.stage = .through) :
    number ∈ order := by
  cases h with
  | unbegun hstage' => rcases hstage' with rfl | ⟨_, rfl⟩ <;> cases hstage
  | begun h => exact h
  | ended _ h => exact h

/-- The value of a caller who is through is what its program comes to. -/
theorem value?_of_through (h : Standing order s u number call caller) (hstage : caller.stage = .through)
    (t : Contents) : caller.value? = some (caller.rest t).value := by
  cases h with
  | unbegun hstage' => rcases hstage' with rfl | ⟨_, rfl⟩ <;> cases hstage
  | begun => cases hstage
  | ended =>
    cases hstage
    rfl

/-- **Who is inside stands as before when only the keys of others change.** -/
theorem frame (h : Standing order s u number call caller) (horder : number ∈ order' ↔ number ∈ order)
    (hs : caller.Inside → Contents.AgreeOn caller.identity.Owns s s')
    (hu : caller.Inside → Contents.AgreeOn caller.identity.Owns u u') : Standing order' s' u' number call caller := by
  cases h with
  | unbegun hstage h => exact .unbegun hstage (mt horder.1 h)
  | @begun lock program script h hconfined hrest =>
    have halike := Program.Confined.run_agree hconfined Script.judge script (hs ⟨lock, rfl⟩)
    exact .begun (horder.2 h) hconfined (halike.state.2.symm.trans (hrest.trans (hu ⟨lock, rfl⟩)))
  | ended hstage h => exact .ended hstage (horder.2 h)

/-- Once begun, a call comes to the same value when only the keys of others change. -/
theorem value_eq (h : Standing order s u number call caller) (hmem : number ∈ order)
    (hs : caller.Inside → Contents.AgreeOn caller.identity.Owns s s') :
    (caller.rest s').value = (caller.rest s).value := by
  cases h with
  | unbegun hstage h => exact absurd hmem h
  | @begun lock program script h hconfined hrest =>
    exact (Program.Confined.run_agree hconfined Script.judge script (hs ⟨lock, rfl⟩)).value.symm
  | ended hstage h => rfl

end Standing

/-- Nobody else inside has keys of a caller who is inside. -/
theorem Guarded.not_owns {α : Type} {locks : Locks} {callers : List (Caller α)} {caller other : Caller α} {m n : Nat}
    (h : Guarded locks callers) (hn : callers[n]? = some caller) (hinside : caller.Inside) (hne : m ≠ n)
    (hm : callers[m]? = some other) (hother : other.Inside) {key : Bytes} (hkey : other.identity.Owns key) :
    ¬caller.identity.Owns key := by
  intro howns
  obtain ⟨l, hl⟩ := hother
  obtain ⟨k, hk⟩ := hinside
  exact hne (h.exclusive hm hn (hkey.unique howns) hl hk)

/-! ## What every step keeps -/

/-- The calls with the numbers of an order. -/
def Call.pick (calls : List Call) (order : List Nat) : List Call := order.filterMap (calls[·]?)

theorem Call.pick_concat {calls : List Call} {number : Nat} {call : Call} (h : calls[number]? = some call)
    (order : List Nat) : pick calls (order ++ [number]) = pick calls order ++ [call] := by
  simp [pick, List.filterMap_append, h]

/-- The calls with a lock so far, made one at a time on the first table, explain the table and the callers. -/
structure Serial (calls : List Call) (store : Store) (order : List Nat)
    (system : Callers Store (Except Failure Reply)) (s u : Contents) : Prop where
  guarded : Guarded system.locks system.callers
  length_eq : system.callers.length = calls.length
  nodup : order.Nodup
  lt_length : ∀ n ∈ order, n < calls.length
  holds : system.state.Holds s
  served : (afterCalls (Call.pick calls order) store).Holds u
  stands : ∀ {n call caller}, calls[n]? = some call → system.callers[n]? = some caller →
    Standing order s u n call caller
  /-- Only the keys of those inside differ. -/
  get?_eq : ∀ key, (∀ (n : Nat) (caller : Caller (Except Failure Reply)), system.callers[n]? = some caller →
    caller.Inside → ¬caller.identity.Owns key) → s.get? key = u.get? key
  results : List.Forall₂ (fun n event => ∀ caller, system.callers[n]? = some caller →
    (caller.rest s).value = event.result) order (history (Call.pick calls order) store)

namespace Serial

open Schemata.Catalog.Callers

variable {calls : List Call} {store : Store} {order : List Nat} {system : Callers Store (Except Failure Reply)}
  {s s' u : Contents} {number : Nat} {call : Call} {caller caller' : Caller (Except Failure Reply)} {state : Store}
  {locks : Locks} {lock : Nat}

/-- Every caller makes a call. -/
theorem exists_call (h : Serial calls store order system s u) (hn : system.callers[number]? = some caller) :
    ∃ call, calls[number]? = some call := by
  have hlt : number < system.callers.length := (List.getElem?_eq_some_iff.1 hn).1
  exact ⟨_, List.getElem?_eq_getElem (h.length_eq ▸ hlt)⟩

/-- What changes only keys of a caller who is inside changes no keys of anyone else inside. -/
theorem agreeOn_other (h : Serial calls store order system s u) (hn : system.callers[number]? = some caller)
    (hinside : caller.Inside) {t t' : Contents} (ht : ∀ key, ¬caller.identity.Owns key → t.get? key = t'.get? key)
    {m : Nat} {other : Caller (Except Failure Reply)} (hne : m ≠ number) (hm : system.callers[m]? = some other)
    (hother : other.Inside) : Contents.AgreeOn other.identity.Owns t t' := fun key hkey =>
  ht key (h.guarded.not_owns hn hinside hne hm hother hkey)

/-- A step of a caller who is not inside, neither before nor after it. -/
theorem quiet (h : Serial calls store order system s u) (hcall : calls[number]? = some call)
    (hn : system.callers[number]? = some caller) (hguarded : Guarded locks (system.callers.set number caller'))
    (hstands : Standing order s u number call caller') (hrest : caller'.rest s = caller.rest s)
    (hbefore : ¬caller.Inside) (hafter : ¬caller'.Inside) :
    Serial calls store order ⟨system.state, locks, system.callers.set number caller'⟩ s u where
  guarded := hguarded
  length_eq := (List.length_set ..).trans h.length_eq
  nodup := h.nodup
  lt_length := h.lt_length
  holds := h.holds
  served := h.served
  stands hcall' hm := by
    rcases (getElem?_set_eq_some_iff hn).1 hm with ⟨rfl, rfl⟩ | ⟨-, hm⟩
    · cases hcall.symm.trans hcall'
      exact hstands
    · exact h.stands hcall' hm
  get?_eq key hkey := by
    refine h.get?_eq key fun m other hm hinside => ?_
    have hne : m ≠ number := by
      rintro rfl
      cases hn.symm.trans hm
      exact hbefore hinside
    exact hkey m other ((getElem?_set_eq_some_iff hn).2 (.inr ⟨hne, hm⟩)) hinside
  results := h.results.imp fun m event hevent other hm => by
    rcases (getElem?_set_eq_some_iff hn).1 hm with ⟨rfl, rfl⟩ | ⟨-, hm⟩
    · rw [hrest]
      exact hevent _ hn
    · exact hevent _ hm

/-- A step of a caller who is inside, which changes no keys of others. -/
theorem inside (h : Serial calls store order system s u) (hcall : calls[number]? = some call)
    (hn : system.callers[number]? = some caller) (hguarded : Guarded locks (system.callers.set number caller'))
    (hinside : caller.Inside) (hholds : state.Holds s')
    (hs : ∀ key, ¬caller.identity.Owns key → s.get? key = s'.get? key)
    (hstands : Standing order s' u number call caller') (hvalue : (caller'.rest s').value = (caller.rest s).value)
    (hafter : caller'.Inside ∨ Contents.AgreeOn caller.identity.Owns s' u) :
    Serial calls store order ⟨state, locks, system.callers.set number caller'⟩ s' u where
  guarded := hguarded
  length_eq := (List.length_set ..).trans h.length_eq
  nodup := h.nodup
  lt_length := h.lt_length
  holds := hholds
  served := h.served
  stands {m _ other} hcall' hm := by
    rcases (getElem?_set_eq_some_iff hn).1 hm with ⟨rfl, rfl⟩ | ⟨hne, hm⟩
    · cases hcall.symm.trans hcall'
      exact hstands
    · exact (h.stands hcall' hm).frame Iff.rfl (h.agreeOn_other hn hinside hs hne hm) fun _ _ _ => rfl
  get?_eq key hkey := by
    by_cases howns : caller.identity.Owns key
    · rcases hafter with hafter | hafter
      · have hnew := hkey number caller' ((getElem?_set_eq_some_iff hn).2 (.inl ⟨rfl, rfl⟩)) hafter
        rw [hstands.identity_eq, ← (h.stands hcall hn).identity_eq] at hnew
        exact absurd howns hnew
      · exact hafter key howns
    · rw [← hs key howns]
      refine h.get?_eq key fun m other hm hother => ?_
      rcases eq_or_ne m number with rfl | hne
      · cases hn.symm.trans hm
        exact howns
      · exact hkey m other ((getElem?_set_eq_some_iff hn).2 (.inr ⟨hne, hm⟩)) hother
  results := by
    obtain ⟨hlength, hresults⟩ := List.forall₂_iff_zip.1 h.results
    refine List.forall₂_iff_zip.2 ⟨hlength, fun {m event} hmem other hm => ?_⟩
    rcases (getElem?_set_eq_some_iff hn).1 hm with ⟨rfl, rfl⟩ | ⟨hne, hm⟩
    · rw [hvalue]
      exact hresults hmem _ hn
    · obtain ⟨call', hcall'⟩ := h.exists_call hm
      rw [(h.stands hcall' hm).value_eq (List.of_mem_zip hmem).1 (h.agreeOn_other hn hinside hs hne hm)]
      exact hresults hmem _ hm

/-- A caller who is inside asks the table a command. -/
theorem ask (h : Serial calls store order system s u) (hcall : calls[number]? = some call)
    {command : Table.Command} {next : Except Table.Trouble command.Answer → Program (Except Failure Reply)}
    {script : Script} (hn : system.callers[number]? =
      some ⟨call.request.identity, .inside lock, .ask command next, script⟩)
    {answer : Except Table.Trouble command.Answer × Script × Store}
    (hanswer : answer = (Store.backend.guarded Script.judge).answer command (script, system.state))
    (hguarded : Guarded locks
      (system.callers.set number ⟨call.request.identity, .inside lock, next answer.1, answer.2.1⟩))
    (hbegun : number ∈ order)
    (hconfined : Program.Confined call.request.identity.Owns (.ask command next))
    (hrest : Contents.AgreeOn call.request.identity.Owns
      (Caller.rest ⟨call.request.identity, .inside lock, .ask command next, script⟩ s).state.2 u) :
    ∃ s', Serial calls store order ⟨answer.2.2, locks,
      system.callers.set number ⟨call.request.identity, .inside lock, next answer.1, answer.2.1⟩⟩ s' u := by
  have hsame := Store.represents.matches.guarded Script.judge command (script, system.state) (script, s)
    command.confined_true ⟨rfl, h.holds⟩
  rw [← hanswer] at hsame
  -- What is left to do after the command is what was left before it.
  have hleft : Caller.rest ⟨call.request.identity, .inside lock, next answer.1, answer.2.1⟩
        ((Contents.backend.guarded Script.judge).answer command (script, s)).2.2 =
      Caller.rest ⟨call.request.identity, .inside lock, .ask command next, script⟩ s := by
    simp only [Caller.rest, hsame.1, hsame.2.1, Program.run_ask]
  refine ⟨((Contents.backend.guarded Script.judge).answer command (script, s)).2.2, ?_⟩
  exact h.inside hcall hn hguarded ⟨lock, rfl⟩ hsame.2.2
    (fun key hkey => (Contents.get?_guarded_answer Script.judge script hconfined.1 hkey).symm)
    (.begun hbegun (hconfined.2 _) (by rw [hleft]; exact hrest)) (by rw [hleft]) (.inl ⟨lock, rfl⟩)

/-- A caller gets its lock: its call is made as a whole on the contents after the calls before it. -/
theorem acquire (h : Serial calls store order system s u) (hcall : calls[number]? = some call)
    (hn : system.callers[number]? = some (call.ready (.waiting lock))) (hnew : number ∉ order)
    (hguarded : Guarded locks (system.callers.set number (call.ready (.inside lock)))) :
    Serial calls store (order ++ [number])
      ⟨system.state, locks, system.callers.set number (call.ready (.inside lock))⟩ s (call.on u).2 := by
  have hconfined := call.request.confined
  have hset : (system.callers.set number (call.ready (.inside lock)))[number]? = some (call.ready (.inside lock)) :=
    (getElem?_set_eq_some_iff hn).2 (.inl ⟨rfl, rfl⟩)
  have hset_ne : ∀ {m other}, m ≠ number → system.callers[m]? = some other →
      (system.callers.set number (call.ready (.inside lock)))[m]? = some other :=
    fun hne hm => (getElem?_set_eq_some_iff hn).2 (.inr ⟨hne, hm⟩)
  have hothers : ∀ {m other key}, m ≠ number → system.callers[m]? = some other → other.Inside →
      other.identity.Owns key → ¬call.request.identity.Owns key :=
    fun hne hm hother => hguarded.not_owns hset ⟨lock, rfl⟩ hne (hset_ne hne hm) hother
  have hnot : ∀ {m other}, system.callers[m]? = some other → other.Inside → m ≠ number := by
    rintro m other hm ⟨k, hk⟩ rfl
    cases hn.symm.trans hm
    cases hk
  have hframe : ∀ key, ¬call.request.identity.Owns key → u.get? key = (call.on u).2.get? key := fun key hkey =>
    (Program.Confined.get?_run hconfined Script.judge call.script hkey).symm
  -- Nobody else is inside with its keys, so they are as the calls before it left them.
  have hagree : Contents.AgreeOn call.request.identity.Owns s u := fun key hkey =>
    h.get?_eq key fun m other hm hother howns => hothers (hnot hm hother) hm hother howns hkey
  have halike := Program.Confined.run_agree hconfined Script.judge call.script hagree
  have hevent := call.event_eq h.served
  constructor
  case guarded => exact hguarded
  case length_eq => exact (List.length_set ..).trans h.length_eq
  case nodup =>
    refine List.nodup_append.2 ⟨h.nodup, List.nodup_singleton _, fun a ha b hb he => ?_⟩
    cases List.mem_singleton.1 hb
    exact hnew (he ▸ ha)
  case lt_length =>
    intro n hmem
    rcases List.mem_append.1 hmem with hmem | hmem
    · exact h.lt_length n hmem
    · cases List.mem_singleton.1 hmem
      exact (List.getElem?_eq_some_iff.1 hcall).1
  case holds => exact h.holds
  case served =>
    rw [Call.pick_concat hcall, afterCalls_append]
    exact hevent.2
  case stands =>
    intro m call' other hcall' hm
    rcases (getElem?_set_eq_some_iff hn).1 hm with ⟨rfl, rfl⟩ | ⟨hne, hm⟩
    · cases hcall.symm.trans hcall'
      exact .begun (by simp) hconfined halike.state.2
    · refine (h.stands hcall' hm).frame (by simp [hne]) (fun _ _ _ => rfl) fun hother key hkey => ?_
      exact hframe key (hothers hne hm hother hkey)
  case get?_eq =>
    intro key hkey
    rw [← hframe key (hkey number _ hset ⟨lock, rfl⟩)]
    exact h.get?_eq key fun m other hm hother => hkey m other (hset_ne (hnot hm hother) hm) hother
  case results =>
    rw [Call.pick_concat hcall, history_append]
    refine List.rel_append (h.results.imp fun m event hresult other hm => ?_) (.cons (fun other hm => ?_) .nil)
    · rcases (getElem?_set_eq_some_iff hn).1 hm with ⟨rfl, rfl⟩ | ⟨-, hm⟩
      · have hready := hresult _ hn
        exact hready
      · exact hresult _ hm
    · cases hset.symm.trans hm
      exact halike.value.trans hevent.1.symm

/-- **Every move keeps the table and the callers explained.** -/
theorem moves (h : Serial calls store order system s u) (hn : system.callers[number]? = some caller)
    (hmoves : system.Moves Store.backend number caller caller' state locks) :
    ∃ s' u', Serial calls store (order ++ if system.acquires number then [number] else [])
      ⟨state, locks, system.callers.set number caller'⟩ s' u' := by
  obtain ⟨call, hcall⟩ := h.exists_call hn
  have hstands := h.stands hcall hn
  have hguarded := h.guarded.moves hn hmoves
  cases hmoves with
  | enters =>
    refine ⟨s, u, ?_⟩
    rw [acquires_eq_false hn nofun]
    cases hstands with
    | unbegun hstage hnew =>
      simpa using h.quiet hcall hn hguarded (.unbegun (.inr ⟨_, rfl⟩) hnew) rfl nofun nofun
    | ended hstage => simp at hstage
  | @acquires identity lock program script _ hacquire =>
    cases hstands with
    | unbegun hstage hnew =>
      rw [acquires_eq_true hn hacquire]
      exact ⟨s, _, h.acquire hcall hn hnew hguarded⟩
    | ended hstage => simp at hstage
  | @asks identity stage command next script hruns =>
    obtain ⟨⟨lock, rfl⟩, hbegun, hconfined, hrest⟩ := hstands.begun_of_runs hruns
    obtain rfl : identity = call.request.identity := hstands.identity_eq
    rw [acquires_eq_false hn nofun]
    obtain ⟨s', hask⟩ := h.ask hcall hn rfl hguarded hbegun hconfined hrest
    exact ⟨s', u, by simpa using hask⟩
  | @notes identity stage record next script hruns =>
    obtain ⟨⟨lock, rfl⟩, hbegun, hconfined, hrest⟩ := hstands.begun_of_runs hruns
    obtain rfl : identity = call.request.identity := hstands.identity_eq
    refine ⟨s, u, ?_⟩
    rw [acquires_eq_false hn nofun]
    simpa using h.inside hcall hn hguarded ⟨lock, rfl⟩ h.holds (fun _ _ => rfl) (.begun hbegun hconfined hrest) rfl
      (.inl ⟨lock, rfl⟩)
  | @releases identity lock value script =>
    obtain ⟨-, hbegun, -, hrest⟩ := hstands.begun_of_runs rfl
    obtain rfl : identity = call.request.identity := hstands.identity_eq
    refine ⟨s, u, ?_⟩
    rw [acquires_eq_false hn nofun]
    simpa using h.inside hcall hn hguarded ⟨lock, rfl⟩ h.holds (fun _ _ => rfl) (.ended (.inr ⟨lock, rfl⟩) hbegun) rfl
      (.inr hrest)
  | @leaves identity lock program script =>
    refine ⟨s, u, ?_⟩
    rw [acquires_eq_false hn nofun]
    cases hstands with
    | unbegun hstage => simp at hstage
    | ended hstage hbegun => simpa using h.quiet hcall hn hguarded (.ended (.inl rfl) hbegun) rfl nofun nofun
  | ends => exact absurd (hstands.begun_of_runs rfl).1 nofun

/-- **Every step keeps the table and the callers explained.** -/
theorem step (h : Serial calls store order system s u) (number : Nat) :
    ∃ s' u', Serial calls store (order ++ if system.acquires number then [number] else [])
      ((system.step Store.backend number).getD system) s' u' := by
  cases hstep : system.step Store.backend number with
  | none =>
    rw [acquires_of_step_eq_none hstep]
    exact ⟨s, u, by simpa using h⟩
  | some system' =>
    obtain ⟨caller, caller', state, locks, hn, hmoves, rfl⟩ := exists_moves hstep
    exact h.moves hn hmoves

/-- **Every run keeps the table and the callers explained.** -/
theorem run (h : Serial calls store order system s u) (schedule : List Nat) :
    ∃ s' u', Serial calls store (order ++ acquisitions Store.backend schedule system)
      (system.run Store.backend schedule) s' u' := by
  induction schedule generalizing order system s u with
  | nil => exact ⟨s, u, by simpa [acquisitions, Callers.run] using h⟩
  | cons number rest ih =>
    obtain ⟨s', u', h'⟩ := h.step number
    rw [acquisitions, ← List.append_assoc]
    exact ih h'

theorem start (calls : List Call) {store : Store} (hs : store.Holds s) :
    Serial calls store [] (.start store (calls.map Call.locked)) s s where
  guarded := .start _ fun caller hcaller => by
    obtain ⟨call, -, rfl⟩ := List.mem_map.1 hcaller
    rfl
  length_eq := List.length_map ..
  nodup := .nil
  lt_length := nofun
  holds := hs
  served := hs
  stands {n call caller} hcall hn := by
    rw [Callers.start, List.getElem?_map, hcall] at hn
    cases hn
    exact .unbegun (.inl rfl) nofun
  get?_eq _ _ := rfl
  results := .nil

end Serial

/-! ## Serializability -/

/-- **Calls side by side come out as if made one at a time.** Let calls with the lock of their identity run side by side
on a table with any rows, with any failures and in any order of steps, until all of them are through. Then the rows and
all results are those of the calls made one after the other, in the order in which they got their locks. -/
theorem run_serializable (calls : List Call) {store : Store} {s : Contents} (hs : store.Holds s) (schedule : List Nat)
    {final : Callers Store (Except Failure Reply)}
    (hfinal : final = (Callers.start store (calls.map Call.locked)).run Store.backend schedule)
    (hthrough : ∀ caller ∈ final.callers, caller.stage = .through) {order : List Nat}
    (horder : order = (Callers.start store (calls.map Call.locked)).acquisitions Store.backend schedule) :
    order.Perm (List.range calls.length) ∧
      final.state.rows = (afterCalls (Call.pick calls order) store).rows ∧
        order.map (fun n => final.callers[n]?.bind Caller.value?) =
          (history (Call.pick calls order) store).map (some ·.result) := by
  obtain ⟨t, u, h⟩ := (Serial.start calls hs).run schedule
  rw [← hfinal, ← horder, List.nil_append] at h
  have hcaller : ∀ n < calls.length, ∃ caller, final.callers[n]? = some caller ∧ caller.stage = .through := by
    intro n hn
    have hlt : n < final.callers.length := h.length_eq ▸ hn
    exact ⟨final.callers[n], List.getElem?_eq_getElem hlt, hthrough _ (List.getElem_mem hlt)⟩
  refine ⟨?_, ?_, ?_⟩
  · refine (List.perm_ext_iff_of_nodup h.nodup List.nodup_range).2 fun n => ?_
    rw [List.mem_range]
    refine ⟨h.lt_length n, fun hn => ?_⟩
    obtain ⟨caller, hcaller, hstage⟩ := hcaller n hn
    obtain ⟨call, hcall⟩ := h.exists_call hcaller
    exact (h.stands hcall hcaller).mem_of_through hstage
  · have htu : t = u := Contents.ext_get? fun key => h.get?_eq key fun n caller hn hinside => by
      obtain ⟨lock, hlock⟩ := hinside
      cases (hthrough _ (List.mem_of_getElem? hn)).symm.trans hlock
    rw [h.holds.rows_eq, h.served.rows_eq, htu]
  · rw [← List.forall₂_eq_eq_eq, List.forall₂_map_left_iff, List.forall₂_map_right_iff, List.forall₂_iff_zip]
    obtain ⟨hlength, hresults⟩ := List.forall₂_iff_zip.1 h.results
    refine ⟨hlength, fun {n event} hmem => ?_⟩
    obtain ⟨caller, hcaller, hstage⟩ := hcaller n (h.lt_length n (List.of_mem_zip hmem).1)
    obtain ⟨call, hcall⟩ := h.exists_call hcaller
    rw [hcaller, ← hresults hmem _ hcaller]
    exact (h.stands hcall hcaller).value?_of_through hstage t

namespace Sample

/-- Two callers for one identity, and one for another, the second command of which fails. -/
def crowd : List Call :=
  [(Request.append orders (some [1])).calm, (Request.describe draft).calm,
    ⟨.describe { draft with identity := order }, [none, some ⟨"disk full"⟩]⟩]

/-- The third caller begins; the second one gets its lock before the first one does; all go on in turns. -/
def turns : List Nat := 2 :: (List.replicate 20 [1, 0, 2]).flatten

end Sample

theorem run_serializable_crowd :
    ∃ final : Callers Store (Except Failure Reply),
      final = (Callers.start (.memory .empty) (Sample.crowd.map Call.locked)).run Store.backend Sample.turns ∧
      (∀ caller ∈ final.callers, caller.stage = .through) ∧
      final.state.rows = (afterCalls (Call.pick Sample.crowd [2, 1, 0]) (.memory .empty)).rows := by
  have hthrough : ∀ caller ∈ ((Callers.start (.memory .empty) (Sample.crowd.map Call.locked)).run Store.backend
      Sample.turns).callers, caller.stage = .through := by decide +kernel
  have horder : (Callers.start (.memory .empty) (Sample.crowd.map Call.locked)).acquisitions Store.backend
      Sample.turns = [2, 1, 0] := by decide +kernel
  refine ⟨_, rfl, hthrough, ?_⟩
  exact (run_serializable Sample.crowd Store.IsNew.memory.holds Sample.turns rfl hthrough horder.symm).2.1

end Schemata.Catalog

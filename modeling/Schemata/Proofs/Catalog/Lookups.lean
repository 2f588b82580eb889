import Schemata.Proofs.Catalog.Asked
import Schemata.Proofs.Catalog.Calls
import Schemata.Proofs.Catalog.Durability
import Schemata.Proofs.Catalog.Isolation

/-!
# Reads beside other callers

A reader takes no lock: it asks for the descriptor and then for the versions, and other callers may change the table
between these two commands. Of such a run the commands that reach the table are listed, each with the state that it
finds (`Callers.asked`).

- A reader comes to what its commands find (`Callers.follows_asked`): the descriptor as it was at its first command and
  the versions as they were at its last one.
- Where no change of the descriptor is followed by one of the versions in between, both were there at once
  (`exists_between`), and the read is one of the state then (`read_between`). Where an erasure takes the descriptor out
  and then the versions, they need not have been (`not_read_between`).
-/

namespace Schemata.Catalog

open Table (Backend Command Contents Program Script Store Trouble)

/-! ## Reads -/

namespace Work

variable {α β : Type} {x : Work α} {f : α → Work β} {commands rest : List Command}

/-- The work asks these commands one after the other, and all of them unless it fails. -/
def AsksInTurn (x : Work α) (commands : List Command) : Prop := Program.AsksInTurn x.run commands

theorem asksInTurn_pure {a : α} : (pure a : Work α).AsksInTurn [] := rfl

theorem asksInTurn_throw {failure : Failure} : (throw failure : Work α).AsksInTurn commands := trivial

theorem asksInTurn_ask {command : Command} : (ask command).AsksInTurn [command] :=
  ⟨rfl, fun answer => by cases answer <;> trivial⟩

theorem AsksInTurn.bind (hx : x.AsksInTurn commands) (hf : ∀ a, (f a).AsksInTurn rest) :
    (x >>= f).AsksInTurn (commands ++ rest) :=
  Program.AsksInTurn.bind hx hf fun _ _ => trivial

/-- What follows asks for nothing. -/
theorem AsksInTurn.bind_nil (hx : x.AsksInTurn commands) (hf : ∀ a, (f a).AsksInTurn []) :
    (x >>= f).AsksInTurn commands := by
  simpa using hx.bind hf

theorem asksInTurn_checked_bind {result : Except Invalid α} (hf : ∀ a, result = .ok a → (f a).AsksInTurn commands) :
    (checked result >>= f).AsksInTurn commands := by
  cases h : result with
  | ok a => exact hf a h
  | error reason => trivial

theorem asksInTurn_found {result : Except Missing α} : (found result).AsksInTurn [] := by
  cases result <;> trivial

theorem asksInTurn_decoded {result : Except Undecodable α} : (decoded result).AsksInTurn [] := by
  cases result <;> trivial

theorem AsksInTurn.within {activity : Activity} {identity : Identity} (hx : x.AsksInTurn commands) :
    (within activity identity x).AsksInTurn commands := by
  have h : Program.AsksInTurn (Catalog.within activity identity x).run (commands ++ []) :=
    Program.AsksInTurn.bind hx (fun _ => rfl) fun failure _ => by cases failure <;> trivial
  rwa [List.append_nil] at h

end Work

/-- The commands of a read, if the identity has keys: for the descriptor, and for the versions. -/
def Identity.lookups (i : Identity) : List Command :=
  ((i.key .descriptor).toOption.map Command.get).toList ++ (i.versionStem.toOption.map Command.scan).toList

section Rows

open Work

-- Otherwise numbers would be compared with 2 ^ 64 step by step.
attribute [local irreducible] maxVersion

variable {i : Identity}

theorem Rows.asksInTurn_octets? {row : RowName} :
    (Rows.octets? i row).AsksInTurn ((i.key row).toOption.map Command.get).toList :=
  asksInTurn_checked_bind fun key hkey => by
    rw [hkey]
    exact asksInTurn_ask

theorem Rows.asksInTurn_versions :
    (Rows.versions i).AsksInTurn (i.versionStem.toOption.map Command.scan).toList :=
  asksInTurn_checked_bind fun start hstart => by
    rw [hstart]
    exact asksInTurn_ask.bind_nil fun _ => asksInTurn_decoded

theorem asksInTurn_descriptorOf :
    (descriptorOf i).AsksInTurn ((i.key .descriptor).toOption.map Command.get).toList := by
  refine (Rows.asksInTurn_octets?.bind_nil fun row => ?_).bind_nil fun descriptor => ?_
  · cases row with
    | none => exact asksInTurn_pure
    | some octets => exact asksInTurn_decoded.bind fun _ => asksInTurn_pure
  · cases descriptor with
    | none => exact asksInTurn_throw
    | some descriptor => exact asksInTurn_pure

theorem asksInTurn_entry {number : Option Int} : (entry i number).AsksInTurn i.lookups := by
  refine AsksInTurn.within (asksInTurn_descriptorOf.bind fun _ => Rows.asksInTurn_versions.bind_nil fun _ => ?_)
  exact asksInTurn_found.bind_nil fun _ => asksInTurn_pure

theorem asksInTurn_numbers : (numbers i).AsksInTurn i.lookups :=
  (asksInTurn_descriptorOf.bind fun _ => Rows.asksInTurn_versions.bind_nil fun _ => asksInTurn_pure).within

theorem asksInTurn_contains : (contains i).AsksInTurn ((i.key .descriptor).toOption.map Command.get).toList :=
  (Rows.asksInTurn_octets?.bind_nil fun _ => asksInTurn_pure).within

/-- The request is one of the three that only read. -/
def Request.reads : Request → Bool
  | .entry _ _ | .numbers _ | .contains _ => true
  | .describe _ | .append _ _ | .eraseVersion _ _ | .erase _ => false

/-- **A read asks for the descriptor and then for the versions**, or for less, and for nothing else. -/
theorem Request.exists_asksInTurn {request : Request} (h : request.reads) :
    ∃ commands, commands <+: request.identity.lookups ∧ request.work.AsksInTurn commands := by
  cases request with
  | entry i number => exact ⟨i.lookups, List.prefix_rfl, asksInTurn_entry.bind_nil fun _ => asksInTurn_pure⟩
  | numbers i => exact ⟨i.lookups, List.prefix_rfl, asksInTurn_numbers.bind_nil fun _ => asksInTurn_pure⟩
  | contains i => exact ⟨_, List.prefix_append _ _, asksInTurn_contains.bind_nil fun _ => asksInTurn_pure⟩
  | _ => cases h

end Rows

/-! ## Rows of a read -/

namespace Identity

/-- The key of the descriptor. -/
def IsDescriptorKey (i : Identity) (key : Bytes) : Prop := i.key .descriptor = .ok key

/-- A key among those of the versions. -/
def IsVersionKey (i : Identity) (key : Bytes) : Prop := ∃ start, i.versionStem = .ok start ∧ start <+: key

instance (i : Identity) (key : Bytes) : Decidable (i.IsDescriptorKey key) := inferInstanceAs (Decidable (_ = _))

instance (i : Identity) (key : Bytes) : Decidable (i.IsVersionKey key) :=
  match h : i.versionStem with
  | .ok start => decidable_of_iff (start <+: key) (by simp [IsVersionKey, h])
  | .error _ => isFalse (by simp [IsVersionKey, h])

variable {i : Identity}

theorem lookups_eq : i.lookups = [] ∨ ∃ key start, i.key .descriptor = .ok key ∧ i.versionStem = .ok start ∧
    i.lookups = [.get key, .scan start] := by
  by_cases hi : i.Fits
  · refine .inr ⟨_, _, key_descriptor hi, versionStem_of_fits hi, ?_⟩
    rw [lookups, key_descriptor hi, versionStem_of_fits hi]
    rfl
  · obtain ⟨part, size, hstem⟩ := stem_of_not_fits hi
    left
    rw [lookups, versionStem, hstem, key_of_stem_error hstem rfl]
    rfl

/-- The descriptor stands apart from the versions. -/
theorem IsDescriptorKey.not_isVersionKey {key : Bytes} (h : i.IsDescriptorKey key) : ¬i.IsVersionKey key := by
  rintro ⟨start, hstart, hstarts⟩
  obtain ⟨hi, octets, hoctets, rfl⟩ := key_eq_ok_iff.1 h
  cases hoctets
  rw [versionStem_of_fits hi] at hstart
  cases hstart
  rw [versionStart, List.prefix_append_right_inj] at hstarts
  exact absurd hstarts (by decide)

end Identity

/-! ## Between the first command and the last one -/

section Between

variable {D V : Bytes → Prop} {e last : Asked Store} {rest : List (Asked Store)}

/-- Without a command that writes the versions they stay as they are. -/
theorem row?_eq_of_not_writes (hchain : (e :: rest).IsChain (Asked.Leaves Store.backend))
    (hholds : ∀ x ∈ e :: rest, ∃ s, x.before.Holds s) (hwrites : ∀ x ∈ e :: rest, ¬x.command.Writes V)
    (hlast : (e :: rest).getLast? = some last) {key : Bytes} (hkey : V key) :
    e.before.row? key = last.before.row? key := by
  induction rest generalizing e with
  | nil =>
    cases hlast
    rfl
  | cons e' rest ih =>
    obtain ⟨s, hs⟩ := hholds e List.mem_cons_self
    cases hchain with
    | cons_cons hleaves hchain =>
      rw [← ih hchain (fun x hx => hholds x (List.mem_cons_of_mem _ hx))
        (fun x hx => hwrites x (List.mem_cons_of_mem _ hx)) (by simpa using hlast), hleaves]
      exact (hs.row?_answer (hwrites e List.mem_cons_self) hkey).symm

/-- **A state with the descriptor of the first one and the versions of the last one**, where no change of the descriptor
is followed by one of the versions. -/
theorem exists_between (hchain : (e :: rest).IsChain (Asked.Leaves Store.backend))
    (hholds : ∀ x ∈ e :: rest, ∃ s, x.before.Holds s) (hdisjoint : ∀ key, D key → ¬V key)
    (hwrites : (e :: rest).Pairwise fun x y => x.command.Writes D → ¬y.command.Writes V)
    (hlast : (e :: rest).getLast? = some last) :
    ∃ x ∈ e :: rest, (∀ key, D key → x.before.row? key = e.before.row? key) ∧
      ∀ key, V key → x.before.row? key = last.before.row? key := by
  induction rest generalizing e with
  | nil =>
    cases hlast
    exact ⟨e, List.mem_cons_self, fun _ _ => rfl, fun _ _ => rfl⟩
  | cons e' rest ih =>
    obtain ⟨s, hs⟩ := hholds e List.mem_cons_self
    obtain ⟨hfirst, hpairwise⟩ := List.pairwise_cons.1 hwrites
    by_cases hD : e.command.Writes D
    · have hV : ¬e.command.Writes V := by
        cases hcommand : e.command with
        | put key value => rw [hcommand] at hD; exact hdisjoint key hD
        | delete key => rw [hcommand] at hD; exact hdisjoint key hD
        | _ => exact id
      refine ⟨e, List.mem_cons_self, fun _ _ => rfl, fun key hkey => ?_⟩
      refine row?_eq_of_not_writes hchain hholds (fun x hx => ?_) hlast hkey
      rcases List.mem_cons.1 hx with rfl | hx
      · exact hV
      · exact hfirst x hx hD
    · cases hchain with
      | cons_cons hleaves hchain =>
        obtain ⟨x, hx, hxD, hxV⟩ := ih hchain (fun x hx => hholds x (List.mem_cons_of_mem _ hx)) hpairwise
          (by simpa using hlast)
        refine ⟨x, List.mem_cons_of_mem _ hx, fun key hkey => ?_, hxV⟩
        rw [hxD key hkey, hleaves]
        exact hs.row?_answer hD hkey

end Between

/-! ## Reads beside others -/

section Read

variable {i : Identity} {asked : List (Asked Store)} {k : Nat} {e : Asked Store} {store : Store} {s : Contents}

/-- A table with the descriptor that a look at it found answers this look alike. -/
theorem answer_get_eq {key : Bytes} (hkey : i.key .descriptor = .ok key) (hcommand : e.command = .get key)
    (h : store.Holds s) (he : ∃ s, e.before.Holds s)
    (hrows : ∀ key, i.IsDescriptorKey key → store.row? key = e.before.row? key) :
    Store.backend.answer e.command store = ((Store.backend.answer e.command e.before).1, store) := by
  obtain ⟨_, he⟩ := he
  rw [hcommand]
  have hconfined : (Command.get key).Confined i.IsDescriptorKey := hkey
  exact h.answer_eq he hconfined rfl hrows

/-- A table with the versions that a look at them found answers this look alike. -/
theorem answer_scan_eq {start : Bytes} (hstart : i.versionStem = .ok start) (hcommand : e.command = .scan start)
    (h : store.Holds s) (he : ∃ s, e.before.Holds s)
    (hrows : ∀ key, i.IsVersionKey key → store.row? key = e.before.row? key) :
    Store.backend.answer e.command store = ((Store.backend.answer e.command e.before).1, store) := by
  obtain ⟨_, he⟩ := he
  rw [hcommand]
  have hconfined : (Command.scan start).Confined i.IsVersionKey := fun key hkey => ⟨start, hstart, hkey⟩
  exact h.answer_eq he hconfined rfl hrows

/-- **What a reader finds** are the descriptor at its first command and the versions at its last one. -/
theorem answer_eq_of_lookups (hholds : ∀ x ∈ asked, ∃ s, x.before.Holds s)
    (hcommands : (asked.filter (·.caller = k)).map (·.command) <+: i.lookups) (h : store.Holds s)
    (hfirst : ∀ first ∈ (Asked.during k asked).head?, ∀ key, i.IsDescriptorKey key →
      store.row? key = first.before.row? key)
    (hlast : ∀ last ∈ (Asked.during k asked).getLast?, ∀ key, i.IsVersionKey key →
      store.row? key = last.before.row? key) :
    ∀ x ∈ asked.filter (·.caller = k),
      Store.backend.answer x.command store = ((Store.backend.answer x.command x.before).1, store) := by
  have hown : ∀ x ∈ asked.filter (·.caller = k), ∃ s, x.before.Holds s := fun x hx =>
    hholds x (List.mem_of_mem_filter hx)
  generalize hfilter : asked.filter (·.caller = k) = own at hcommands hown
  rcases i.lookups_eq with hlookups | ⟨key, start, hkey, hstart, hlookups⟩
  · rw [hlookups, List.prefix_nil, List.map_eq_nil_iff] at hcommands
    rw [hcommands]
    nofun
  · rw [hlookups] at hcommands
    match own, hfilter with
    | [], _ => nofun
    | [x], hfilter =>
      simp only [List.map_cons, List.map_nil, List.cons_prefix_cons] at hcommands
      rw [Asked.during_of_filter_eq_singleton hfilter] at hfirst
      rw [List.forall_mem_singleton] at hown ⊢
      exact answer_get_eq hkey hcommands.1 h hown (hfirst x rfl)
    | [x, y], hfilter =>
      simp only [List.map_cons, List.map_nil, List.cons_prefix_cons] at hcommands
      obtain ⟨between, hduring⟩ := Asked.during_of_filter_eq_pair hfilter
      rw [hduring] at hfirst hlast
      rw [List.forall_mem_cons, List.forall_mem_singleton] at hown ⊢
      exact ⟨answer_get_eq hkey hcommands.1 h hown.1 (hfirst x rfl),
        answer_scan_eq hstart hcommands.2.1 h hown.2 (hlast y List.getLast?_concat)⟩
    | _ :: _ :: _ :: _, _ => simp at hcommands

end Read

section Run

variable {callers : List (Caller (Except Failure Reply))} {store : Store} {s : Contents} (hs : store.Holds s)
  {schedule : List Nat} {k : Nat}
include hs

/-- Every command finds a table that holds contents. -/
theorem exists_holds_of_asked :
    ∀ x ∈ (Callers.start store callers).asked Store.backend schedule, ∃ s, x.before.Holds s := by
  refine Callers.asked_forall (P := fun t : Store => ∃ s, t.Holds s) ?_ schedule ⟨s, hs⟩
  rintro command state ⟨s, h⟩
  exact ⟨_, (Store.represents command state s h).2⟩

/-- Among the states from the first command of a caller to its last one there is one between the first and the last. -/
theorem exists_during {D V : Bytes → Prop} (hdisjoint : ∀ key, D key → ¬V key) {span : List (Asked Store)}
    (hspan : span = Asked.during k ((Callers.start store callers).asked Store.backend schedule)) (hne : span ≠ [])
    (hwrites : span.Pairwise fun x y => x.command.Writes D → ¬y.command.Writes V) :
    ∃ x ∈ span, (∃ u, x.before.Holds u) ∧
      (∀ first ∈ span.head?, ∀ key, D key → x.before.row? key = first.before.row? key) ∧
        ∀ last ∈ span.getLast?, ∀ key, V key → x.before.row? key = last.before.row? key := by
  have hpart : span <:+: (Callers.start store callers).asked Store.backend schedule := hspan ▸ Asked.during_isInfix
  have hholds : ∀ x ∈ span, ∃ u, x.before.Holds u := fun x hx => exists_holds_of_asked hs x (hpart.mem hx)
  have hchain := List.IsChain.infix (Callers.isChain_asked Store.backend (.start store callers) schedule).1 hpart
  obtain ⟨first, rest, rfl⟩ := List.exists_cons_of_ne_nil hne
  obtain ⟨x, hx, hxD, hxV⟩ := exists_between hchain hholds hdisjoint hwrites (List.getLast?_eq_some_getLast hne)
  refine ⟨x, hx, hholds x hx, fun y hy => ?_, fun y hy => ?_⟩
  · cases hy
    exact hxD
  · rw [List.getLast?_eq_some_getLast hne] at hy
    cases hy
    exact hxV

/-- **A read is that of every table** with the descriptor that its first command found and the versions that its last
one found. -/
theorem result_of_read {call : Call} (hcalm : call.Calm) (hreads : call.request.reads)
    (hcaller : callers[k]? = some call.unlocked) {r : Except Failure Reply}
    (hr : ((Callers.start store callers).run Store.backend schedule).callers[k]?.bind Caller.value? = some r)
    {span : List (Asked Store)}
    (hspan : span = Asked.during k ((Callers.start store callers).asked Store.backend schedule)) {t : Store}
    {u : Contents} (ht : t.Holds u)
    (hfirst : ∀ first ∈ span.head?, ∀ key, call.request.identity.IsDescriptorKey key →
      t.row? key = first.before.row? key)
    (hlast : ∀ last ∈ span.getLast?, ∀ key, call.request.identity.IsVersionKey key →
      t.row? key = last.before.row? key) :
    (call.request.calm.event t).result = r := by
  have hfollows := Callers.follows_asked (.start store callers) schedule hcaller (.inl rfl) hcalm hr
  obtain ⟨commands, hstarts, hturn⟩ := Request.exists_asksInTurn hreads
  have hcommands := (hfollows.map_fst_isPrefix hturn).trans hstarts
  rw [List.map_map] at hcommands
  subst hspan
  refine hfollows.run_eq fun x hx => ?_
  obtain ⟨e, he, rfl⟩ := List.mem_map.1 hx
  exact answer_eq_of_lookups (exists_holds_of_asked hs) hcommands ht hfirst hlast e he

end Run

/-- **Reads beside others.** Let a call that only reads run without failures beside any other callers, on a table with
any rows. Then its result is that of an undisturbed read of every table with the descriptor as it was at the read's
first command and the versions as they were at its last one. If between these two no command that writes the descriptor
is followed by one that writes a version, then it is the result of an undisturbed read in one of the states that the
table was in from the first of them to the last. -/
theorem read_between (callers : List (Caller (Except Failure Reply))) {store : Store} {s : Contents}
    (hs : store.Holds s) (schedule : List Nat) {k : Nat} {call : Call} (hcalm : call.Calm)
    (hreads : call.request.reads) (hcaller : callers[k]? = some call.unlocked) {r : Except Failure Reply}
    (hr : ((Callers.start store callers).run Store.backend schedule).callers[k]?.bind Caller.value? = some r)
    {span : List (Asked Store)}
    (hspan : span = Asked.during k ((Callers.start store callers).asked Store.backend schedule)) :
    (∀ (t : Store) (u : Contents), t.Holds u →
      (∀ first ∈ span.head?, ∀ key, call.request.identity.IsDescriptorKey key → t.row? key = first.before.row? key) →
      (∀ last ∈ span.getLast?, ∀ key, call.request.identity.IsVersionKey key → t.row? key = last.before.row? key) →
        (call.request.calm.event t).result = r) ∧
    (span ≠ [] →
      span.Pairwise (fun x y => x.command.Writes call.request.identity.IsDescriptorKey →
        ¬y.command.Writes call.request.identity.IsVersionKey) →
      ∃ x ∈ span, (call.request.calm.event x.before).result = r) := by
  refine ⟨fun t u => result_of_read hs hcalm hreads hcaller hr hspan, fun hne hwrites => ?_⟩
  obtain ⟨x, hx, ⟨u, hu⟩, hfirst, hlast⟩ := exists_during hs (fun key h => h.not_isVersionKey) hspan hne hwrites
  exact ⟨x, hx, result_of_read hs hcalm hreads hcaller hr hspan hu hfirst hlast⟩

/-! ## Samples -/

namespace Sample

/-- A reader beside a caller that makes a call with the lock. -/
def beside (request : Request) : Callers Store (Except Failure Reply) :=
  .start (afterCalls uploaded (.memory .empty)) [(Request.numbers orders).calm.unlocked, request.calm.locked]

/-- The other caller takes all of its steps between the first and the second command of the reader. -/
def between : List Nat := 0 :: List.replicate 12 1 ++ [0, 0]

end Sample

/-- A reader beside an append. -/
theorem read_between_orders : ∃ r,
    ((Sample.beside (.append Sample.orders (some [2]))).run Store.backend Sample.between).callers[0]?.bind
      Caller.value? = some r ∧
    ∃ x ∈ Asked.during 0 ((Sample.beside (.append Sample.orders (some [2]))).asked Store.backend Sample.between),
      ((Request.numbers Sample.orders).calm.event x.before).result = r := by
  have hends : (((Sample.beside (.append Sample.orders (some [2]))).run Store.backend Sample.between).callers[0]?.bind
      Caller.value?).isSome := by decide +kernel
  have hasks : Asked.during 0 ((Sample.beside (.append Sample.orders (some [2]))).asked Store.backend
      Sample.between) ≠ [] := fun h => absurd (congrArg List.length h) (by decide +kernel)
  have hwrites : (Asked.during 0 ((Sample.beside (.append Sample.orders (some [2]))).asked Store.backend
      Sample.between)).Pairwise fun x y => x.command.Writes Sample.orders.IsDescriptorKey →
        ¬y.command.Writes Sample.orders.IsVersionKey := by decide +kernel
  obtain ⟨s, -, -, hs⟩ := exists_trail Sample.uploaded Orderly.empty Store.IsNew.memory.holds
  obtain ⟨r, hr⟩ := Option.isSome_iff_exists.1 hends
  exact ⟨r, hr, (read_between _ hs Sample.between (Request.calm_calm (.numbers Sample.orders)) rfl rfl hr rfl).2 hasks
    hwrites⟩

/-- The numbers that a call ended with. -/
def numbersOf : Except Failure Reply → Option (List Int)
  | .ok (.numbers ns) => some ns
  | _ => none

/-- **Torn reads.** Without the condition the second part fails: a reader that finds the descriptor, and the versions
only after an erasure has taken both out, ends without any versions. No state on the way shows that. -/
theorem not_read_between : ¬∀ (earlier calls : List Call) (i : Identity) (schedule : List Nat)
    (system : Callers Store (Except Failure Reply)) (r : Except Failure Reply),
    system = .start (afterCalls earlier (.memory .empty)) ((Request.numbers i).calm.unlocked :: calls.map Call.locked) →
    (system.run Store.backend schedule).callers[0]?.bind Caller.value? = some r →
      ∃ x ∈ Asked.during 0 (system.asked Store.backend schedule),
        ((Request.numbers i).calm.event x.before).result = r := by
  intro h
  have hempty : (((Sample.beside (.erase Sample.orders)).run Store.backend Sample.between).callers[0]?.bind
      Caller.value?).map numbersOf = some (some []) := by decide +kernel
  have hnone : ∀ x ∈ Asked.during 0 ((Sample.beside (.erase Sample.orders)).asked Store.backend Sample.between),
      numbersOf ((Request.numbers Sample.orders).calm.event x.before).result ≠ some [] := by decide +kernel
  obtain ⟨r, hr, hnumbers⟩ := Option.map_eq_some_iff.1 hempty
  obtain ⟨x, hx, hresult⟩ := h Sample.uploaded [(Request.erase Sample.orders).calm] Sample.orders Sample.between
    (Sample.beside (.erase Sample.orders)) r rfl hr
  exact hnone x hx (hresult ▸ hnumbers)

end Schemata.Catalog

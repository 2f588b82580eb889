import Schemata.Catalog.Registry
import Schemata.Proofs.Catalog.Shelf
import Schemata.Proofs.Catalog.Work

/-!
# Where the operations on rows end

- A work `Tries` one thing when it either comes to its value or fails as a table's command did, without effect; a
  sequence then fails there or goes on from the value (`Tries.ends_bind`). So does a work that asks one command
  (`Asks.tries`).
- A failure is raised as it is unless a number in its words is too long (`worded_of_none`, `worded_of_number`).
- In orderly contents, for an identity that fits into keys, every operation on rows asks what it is for (`asks_put`,
  `asks_versions`, `asks_counter`, …).
- Clearing an identity takes out some of its rows, and all of them unless a command fails (`ends_clear`).
-/

namespace Schemata.Catalog

open Table (Contents Trouble)

/-! ## Failures in words -/

namespace Failure

variable {failure : Failure} {n : Int}

theorem worded_of_none (h : failure.number? = none) : failure.worded = failure := by
  rw [worded, h, Option.all_none, if_pos rfl]

theorem worded_of_number (h : failure.number? = some n) :
    failure.worded = if Text.isWritable n then failure else .unwritable := by
  rw [worded, h, Option.all_some]

/-- What is raised for a failure is the failure, or that it cannot be written. -/
theorem eq_or_eq_of_worded {raised : Failure} (h : raised = failure.worded) :
    raised = failure ∨ raised = .unwritable := by
  rw [worded] at h
  split at h
  · exact .inl h
  · exact .inr h

/-- A part that is too long is refused as it is. -/
theorem worded_of_stem_error {i : Identity} {reason : Invalid} (h : i.stem = .error reason) :
    (invalid reason).worded = invalid reason := by
  have hi : ¬i.Fits := fun hi => by
    rw [Identity.stem_of_fits hi] at h
    cases h
  obtain ⟨part, size, hstem⟩ := Identity.stem_of_not_fits hi
  cases h.symm.trans hstem
  exact worded_of_none rfl

end Failure

namespace Work

variable {α β : Type} {may : Trouble → Prop} {x : Work α} {f : α → Work β} {s t u : Contents} {a : α}

/-- A work that comes to a value and leaves certain contents, or fails without effect where a command may fail. -/
def Tries (may : Trouble → Prop) (x : Work α) (s : Contents) (a : α) (u : Contents) : Prop :=
  ∀ r t, x.Ends may s r t ↔ (∃ trouble, may trouble ∧ r = .error (.table trouble) ∧ t = s) ∨ r = .ok a ∧ t = u

theorem tries_ask (command : Table.Command) : (ask command).Tries may s (s.answer command).1 (s.answer command).2 :=
  fun _ _ => ends_ask

theorem Tries.ends_bind (hx : x.Tries may s a u) {r : Except Failure β} : (x >>= f).Ends may s r t ↔
    (∃ trouble, may trouble ∧ r = .error (.table trouble) ∧ t = s) ∨ (f a).Ends may u r t := by
  rw [Work.ends_bind]
  constructor
  · rintro (⟨failure, h, rfl⟩ | ⟨b, v, h, hf⟩)
    · rcases (hx _ _).1 h with ⟨trouble, hm, he, rfl⟩ | ⟨he, -⟩
      · cases he
        exact Or.inl ⟨trouble, hm, rfl, rfl⟩
      · cases he
    · rcases (hx _ _).1 h with ⟨trouble, -, he, -⟩ | ⟨he, rfl⟩
      · cases he
      · cases he
        exact Or.inr hf
  · rintro (⟨trouble, hm, rfl, rfl⟩ | hf)
    · exact Or.inl ⟨_, (hx _ _).2 (Or.inl ⟨trouble, hm, rfl, rfl⟩), rfl⟩
    · exact Or.inr ⟨a, u, (hx _ _).2 (Or.inr ⟨rfl, rfl⟩), hf⟩

/-- What is made of the value of one thing tried. -/
theorem Tries.map (hx : x.Tries may s a u) {b : β} (hf : f a = pure b) : (x >>= f).Tries may s b u := by
  intro r t
  rw [hx.ends_bind, hf, ends_pure]

/-- A work that asks one command and makes its value of the answer in certain contents. -/
def Asks (x : Work α) (s : Contents) (a : α) (u : Contents) : Prop :=
  ∃ (command : Table.Command) (g : command.Answer → Work α),
    x = ask command >>= g ∧ g (s.answer command).1 = pure a ∧ (s.answer command).2 = u

theorem asks_ask (command : Table.Command) : (ask command).Asks s (s.answer command).1 (s.answer command).2 :=
  ⟨command, pure, (bind_pure _).symm, rfl, rfl⟩

theorem Asks.map (hx : x.Asks s a u) {b : β} (hf : f a = pure b) : (x >>= f).Asks s b u := by
  obtain ⟨command, g, rfl, hg, rfl⟩ := hx
  have hvalue : g (s.answer command).1 >>= f = pure b := by rw [hg, pure_bind, hf]
  exact ⟨command, fun answer => g answer >>= f, bind_assoc _ _ _, hvalue, rfl⟩

theorem Asks.tries (hx : x.Asks s a u) : x.Tries may s a u := by
  obtain ⟨command, g, rfl, hg, rfl⟩ := hx
  exact (tries_ask command).map hg

/-- Run on a table, one thing tried comes to its value. -/
theorem Tries.run {σ : Type} {backend : Table.Backend σ} {holds : σ → Contents → Prop} (hb : backend.Represents holds)
    (hx : x.Tries Table.Calm s a u) {state : σ} (hs : holds state s) : (x.run.run backend state).value = .ok a := by
  obtain ⟨t, -, h⟩ := ends_run_calm hb x hs
  rcases (hx _ _).1 h with ⟨trouble, hm, -⟩ | ⟨hvalue, -⟩
  · exact hm.elim
  · exact hvalue

end Work

namespace Rows

open Schemata.Catalog.Work

variable {may : Trouble → Prop} {i : Identity} {s t : Contents} {row : RowName} {key octets : Bytes}

/-! ## One row -/

theorem checked_bind_ok {α β : Type} {result : Except Invalid α} {f : α → Work β} {a : α} (h : result = .ok a) :
    (checked result >>= f) = f a := by
  rw [h]
  rfl

theorem checked_bind_error {α β : Type} {result : Except Invalid α} {f : α → Work β} {reason : Invalid}
    (h : result = .error reason) : (checked result >>= f) = fail (.invalid reason) := by
  rw [h]
  rfl

theorem asks_octets? (hkey : i.key row = .ok key) : (octets? i row).Asks s (i.row? s row) s := by
  rw [octets?, checked_bind_ok hkey, Identity.row?_of_key hkey]
  exact asks_ask _

theorem tries_octets? (hkey : i.key row = .ok key) : (octets? i row).Tries may s (i.row? s row) s :=
  (asks_octets? hkey).tries

theorem asks_put (hkey : i.key row = .ok key) : (put i row octets).Asks s () (i.putRow s row octets) := by
  rw [put, checked_bind_ok hkey, Identity.putRow_of_key hkey]
  exact asks_ask _

theorem tries_put (hkey : i.key row = .ok key) : (put i row octets).Tries may s () (i.putRow s row octets) :=
  (asks_put hkey).tries

theorem tries_erase (hkey : i.key row = .ok key) : (erase i row).Tries may s () (i.eraseRow s row) := by
  rw [erase, checked_bind_ok hkey, Identity.eraseRow_of_key hkey]
  exact tries_ask _

theorem put_of_error {reason : Invalid} (h : i.key row = .error reason) :
    put i row octets = fail (.invalid reason) := checked_bind_error h

theorem erase_of_error {reason : Invalid} (h : i.key row = .error reason) :
    erase i row = fail (.invalid reason) := checked_bind_error h

theorem octets?_of_error {reason : Invalid} (h : i.key row = .error reason) :
    octets? i row = fail (.invalid reason) := checked_bind_error h

/-! ## The descriptor, the versions and the counter -/

/-- Without keys every look at the descriptor is refused. -/
theorem isDescribed_of_stem_error {reason : Invalid} (h : i.stem = .error reason) :
    isDescribed i = throw (.invalid reason) := by
  rw [isDescribed, octets?_of_error (Identity.key_of_stem_error h rfl), fail, Failure.worded_of_stem_error h]
  rfl

theorem descriptor?_of_stem_error {reason : Invalid} (h : i.stem = .error reason) :
    descriptor? i = throw (.invalid reason) := by
  rw [descriptor?, octets?_of_error (Identity.key_of_stem_error h rfl), fail, Failure.worded_of_stem_error h]
  rfl

theorem tries_isDescribed (hi : i.Fits) : (isDescribed i).Tries may s (i.row? s .descriptor).isSome s :=
  (tries_octets? (Identity.key_descriptor hi)).map rfl

/-- A look at the descriptor gives what its row says. -/
theorem asks_descriptor?_of_row (hi : i.Fits) (h : i.row? s .descriptor = some octets) {descriptor : Descriptor}
    (hread : Descriptor.ofRow i octets = .ok descriptor) : (descriptor? i).Asks s (some descriptor) s := by
  refine (asks_octets? (Identity.key_descriptor hi)).map ?_
  simp only [h, hread]
  rfl

theorem asks_descriptor? (hs : Orderly s) (hi : i.Fits) : (descriptor? i).Asks s (i.descriptorIn s) s := by
  cases h : i.row? s .descriptor with
  | none =>
    refine (asks_octets? (Identity.key_descriptor hi)).map ?_
    rw [Identity.descriptorIn, h]
    rfl
  | some octets =>
    obtain ⟨descriptor, hread, hd⟩ := hs.ofRow_descriptor h
    rw [hd]
    exact asks_descriptor?_of_row hi h hread

theorem tries_descriptor? (hs : Orderly s) (hi : i.Fits) : (descriptor? i).Tries may s (i.descriptorIn s) s :=
  (asks_descriptor? hs hi).tries

theorem asks_versions (hs : Orderly s) (hi : i.Fits) : (versions i).Asks s (i.versionsIn s) s := by
  rw [versions, checked_bind_ok (Identity.versionStem_of_fits hi)]
  refine (asks_ask (.scan i.versionStart)).map ?_
  rw [Contents.answer, hs.mapM_versionOfRow hi]
  rfl

theorem tries_versions (hs : Orderly s) (hi : i.Fits) : (versions i).Tries may s (i.versionsIn s) s :=
  (asks_versions hs hi).tries

theorem asks_counter (hs : Orderly s) (hi : i.Fits) : (counter i).Asks s (i.counterIn s) s := by
  refine (asks_octets? (Identity.key_counter hi)).map ?_
  cases h : i.row? s .counter with
  | none => rw [Identity.counterIn, h]; rfl
  | some octets =>
    simp only [hs.numberOfRow_counter h]
    rfl

theorem tries_counter (hs : Orderly s) (hi : i.Fits) : (counter i).Tries may s (i.counterIn s) s :=
  (asks_counter hs hi).tries

theorem asks_putCounter (hi : i.Fits) {n : Nat} (hn : n ≤ maxVersion) :
    (putCounter i n).Asks s () (i.putRow s .counter (Bytes.bigEndian 8 n)) := by
  have hkey := Identity.key_counter hi
  rw [putCounter, checked_bind_ok hkey, if_pos ⟨Int.natCast_nonneg n, by exact_mod_cast hn⟩,
    Identity.putRow_of_key hkey]
  exact asks_ask _

theorem tries_putCounter (hi : i.Fits) {n : Nat} (hn : n ≤ maxVersion) :
    (putCounter i n).Tries may s () (i.putRow s .counter (Bytes.bigEndian 8 n)) := (asks_putCounter hi hn).tries

end Rows

/-! ## Selecting a version -/

section Select

variable {i : Identity} {s : Contents}

/-- A version that is asked for by its number is the content of its row. -/
theorem Orderly.selectVersion_some (hs : Orderly s) (hi : i.Fits) (n : Int) :
    selectVersion i (some n) (i.versionsIn s) =
      match i.row? s (.version n) with
      | some content => .ok ⟨n.toNat, content⟩
      | none => .error (.version i n) := by
  rw [selectVersion]
  cases hfind : (i.versionsIn s).find? fun version => (version.number : Int) = n with
  | some version =>
    have hn : (version.number : Int) = n := by simpa using List.find?_some hfind
    have hrow := (hs.mem_versionsIn hi).1 (List.mem_of_find?_eq_some hfind)
    subst hn
    simp [hrow]
  | none =>
    cases hrow : i.row? s (.version n) with
    | none => rfl
    | some content =>
      obtain ⟨m, rfl, -, -, -⟩ := hs.number_of_row? hrow
      have := List.find?_eq_none.1 hfind _ ((hs.mem_versionsIn hi).2 hrow)
      simp at this

/-- A version that is selected is one of those to select from. -/
theorem mem_of_selectVersion {number : Option Int} {versions : List Version} {version : Version}
    (h : selectVersion i number versions = .ok version) : version ∈ versions := by
  unfold selectVersion at h
  split at h
  · split at h
    · cases h
      exact List.mem_of_getLast? ‹_›
    · cases h
  · split at h
    · cases h
      exact List.mem_of_find?_eq_some ‹_›
    · cases h

/-- What is missing where no version is selected names the number that was asked for. -/
theorem version?_of_selectVersion {number : Option Int} {versions : List Version} {what : Missing}
    (h : selectVersion i number versions = .error what) : what.version? = number := by
  unfold selectVersion at h
  split at h
  · split at h
    · cases h
    · cases h
      rfl
  · split at h
    · cases h
    · cases h
      rfl

end Select

/-! ## Clearing -/

/-- The rows of an identity behind its descriptor: its versions and its counter. -/
def Identity.leftovers (i : Identity) (s : Contents) : List RowName :=
  (i.versionsIn s).map (fun version => .version version.number) ++ [.counter]

section Clear

open Work

variable {may : Trouble → Prop} {i : Identity} {s t : Contents}

theorem descriptor_notMem_leftovers : RowName.descriptor ∉ i.leftovers s := by simp [Identity.leftovers]

/-- All rows but the descriptor are among those that clearing takes out. -/
theorem Orderly.mem_leftovers (hs : Orderly s) {row : RowName} (hrow : row ≠ .descriptor)
    (h : i.row? s row ≠ none) : row ∈ i.leftovers s := by
  obtain ⟨octets, ho⟩ := Option.ne_none_iff_exists'.1 h
  have hi := Identity.fits_of_row? ho
  rw [Identity.leftovers, List.mem_append, List.mem_map]
  cases row with
  | counter => exact Or.inr List.mem_cons_self
  | descriptor => exact absurd rfl hrow
  | version n =>
    obtain ⟨m, rfl, -, -, -⟩ := hs.number_of_row? ho
    exact Or.inl ⟨⟨m, octets⟩, (hs.mem_versionsIn hi).2 ho, rfl⟩

/-- After clearing there is at most a descriptor. -/
theorem Orderly.row?_cleared (hs : Orderly s) {row : RowName} (hrow : row ≠ .descriptor) :
    i.row? (i.eraseRows (i.leftovers s) s) row = none := by
  rw [Identity.row?_eraseRows]
  by_cases h : i.row? s row = none
  · rw [h, ite_self]
  · rw [if_pos ⟨rfl, hs.mem_leftovers hrow h⟩]

/-- After the descriptor is erased too there is nothing. -/
theorem Orderly.row?_erased (hs : Orderly s) {row : RowName} :
    i.row? (i.eraseRows (i.leftovers (i.eraseRow s .descriptor)) (i.eraseRow s .descriptor)) row = none := by
  by_cases hrow : row = .descriptor
  · have hgone : i.row? (i.eraseRow s .descriptor) row = none := by rw [Identity.row?_eraseRow, if_pos ⟨rfl, hrow⟩]
    rw [Identity.row?_eraseRows, hgone, ite_self]
  · exact hs.eraseRow.row?_cleared hrow

theorem ends_eraseVersions (hi : i.Fits) {versions : List Version} (hmax : ∀ v ∈ versions, v.number ≤ maxVersion)
    {r : Except Failure Unit} (h : (eraseVersions i versions).Ends may s r t) :
    (∃ trouble rows, may trouble ∧ r = .error (.table trouble) ∧ .descriptor ∉ rows ∧ t = i.eraseRows rows s) ∨
      r = .ok () ∧ t = i.eraseRows (versions.map fun version => .version version.number) s := by
  induction versions generalizing s with
  | nil => exact Or.inr (ends_pure.1 h)
  | cons version rest ih =>
    obtain ⟨hv, hrest⟩ := List.forall_mem_cons.1 hmax
    rcases (Rows.tries_erase (Identity.key_version hi hv)).ends_bind.1 h with ⟨trouble, hm, rfl, rfl⟩ | h
    · exact Or.inl ⟨trouble, [], hm, rfl, by simp, rfl⟩
    · rcases ih hrest h with ⟨trouble, rows, hm, rfl, hrows, rfl⟩ | ⟨rfl, rfl⟩
      · exact Or.inl ⟨trouble, .version version.number :: rows, hm, rfl, by simpa using hrows, rfl⟩
      · exact Or.inr ⟨rfl, rfl⟩

/-- **Clearing.** Cut off anywhere, it has taken out rows of the identity other than the descriptor, and at its end all
of these. -/
theorem ends_clear (hs : Orderly s) (hi : i.Fits) {r : Except Failure Nat} (h : (clear i).Ends may s r t) :
    (∃ trouble rows, may trouble ∧ r = .error (.table trouble) ∧ .descriptor ∉ rows ∧ t = i.eraseRows rows s) ∨
      r = .ok (i.versionsIn s).length ∧ t = i.eraseRows (i.leftovers s) s := by
  have hmax : ∀ v ∈ i.versionsIn s, v.number ≤ maxVersion := by
    rintro ⟨n, content⟩ hv
    have hle := hs.le_latestIn (n := n) (by rw [(hs.mem_versionsIn hi).1 hv]; simp)
    exact Nat.le_trans hle (hs.latestIn_le hi)
  rcases (Rows.tries_versions hs hi).ends_bind.1 h with ⟨trouble, hm, rfl, rfl⟩ | hrest
  · exact Or.inl ⟨trouble, [], hm, rfl, by simp, rfl⟩
  rcases ends_bind.1 hrest with ⟨failure, hcut, hr⟩ | ⟨_, u, hall, hlast⟩
  · rcases ends_eraseVersions hi hmax hcut with ⟨trouble, rows, hm, hfailure, hrows, ht⟩ | ⟨hdone, -⟩
    · cases hfailure
      exact Or.inl ⟨trouble, rows, hm, hr, hrows, ht⟩
    · cases hdone
  · rcases ends_eraseVersions hi hmax hall with ⟨trouble, rows, -, hfailure, -, -⟩ | ⟨-, rfl⟩
    · cases hfailure
    rcases (Rows.tries_erase (Identity.key_counter hi)).ends_bind.1 hlast with ⟨trouble, hm, rfl, rfl⟩ | hlast
    · exact Or.inl ⟨trouble, _, hm, rfl, by simp, rfl⟩
    · obtain ⟨rfl, rfl⟩ := ends_pure.1 hlast
      refine Or.inr ⟨rfl, ?_⟩
      rw [Identity.leftovers, Identity.eraseRows_append]
      rfl

end Clear

end Schemata.Catalog

import Schemata.Proofs.Catalog.Step
import Schemata.Proofs.Table.Footprint

/-!
# What requests are made of

- An identity owns the keys that start with its stem (`Identity.Owns`), and no key has two owners (`Owns.unique`).
- A property of works is compositional over some keys when every command to these keys has it, and everything that is
  put together from works that have it (`Work.Compositional`). A request is put together from commands to keys that its
  identity owns, so it has every such property (`Request.of_compositional`).
-/

namespace Schemata.Catalog

open Table (Command)

/-! ## Owners of keys -/

namespace Identity

/-- The key starts with the stem of the identity. -/
def Owns (i : Identity) (key : Bytes) : Prop := ∃ stem, i.stem = .ok stem ∧ stem <+: key

variable {i j : Identity} {row : RowName} {key start : Bytes}

/-- **No key has two owners.** -/
theorem Owns.unique (hi : i.Owns key) (hj : j.Owns key) : i = j := by
  obtain ⟨_, hsi, x, hx⟩ := hi
  obtain ⟨_, hsj, y, hy⟩ := hj
  rcases Decidable.em i.Fits with hi | hi
  · rcases Decidable.em j.Fits with hj | hj
    · rw [stem_of_fits hi] at hsi
      rw [stem_of_fits hj] at hsj
      cases hsi
      cases hsj
      exact (eq_of_append_stem hi hj (hx.trans hy.symm)).1
    · obtain ⟨_, _, herror⟩ := stem_of_not_fits hj
      rw [herror] at hsj
      cases hsj
  · obtain ⟨_, _, herror⟩ := stem_of_not_fits hi
    rw [herror] at hsi
    cases hsi

theorem owns_key (h : i.key row = .ok key) : i.Owns key := by
  obtain ⟨hi, octets, -, rfl⟩ := key_eq_ok_iff.1 h
  exact ⟨_, stem_of_fits hi, List.prefix_append _ _⟩

/-- A scan of the versions looks at keys of the identity only. -/
theorem confined_scan (h : i.versionStem = .ok start) : (Command.scan start).Confined i.Owns := by
  intro key hkey
  rw [versionStem] at h
  cases hstem : i.stem with
  | error reason => rw [hstem] at h; cases h
  | ok stem =>
    rw [hstem] at h
    cases h
    exact ⟨stem, hstem, (List.prefix_append _ _).trans hkey⟩

end Identity

/-! ## Properties of what is put together -/

/-- A property that commands to some keys have, and everything that is put together from works that have it. -/
structure Work.Compositional (own : Bytes → Prop) (C : (α : Type) → Work α → Prop) : Prop where
  of_pure : ∀ {α : Type} (a : α), C α (pure a)
  of_throw : ∀ {α : Type} (failure : Failure), C α (throw failure)
  of_ask : ∀ command : Command, command.Confined own → C command.Answer (ask command)
  of_noteDone : ∀ (message : String) (identity : Identity) (extra : Json.Fields),
    C Unit (noteDone message identity extra)
  of_bind : ∀ {α β : Type} {x : Work α} {f : α → Work β}, C α x → (∀ a, C β (f a)) → C β (x >>= f)
  of_within : ∀ {α : Type} {activity : Activity} {identity : Identity} {x : Work α},
    C α x → C α (within activity identity x)

namespace Work.Compositional

variable {C : (α : Type) → Work α → Prop} {i : Identity} {row : RowName}

section Keys

variable {own : Bytes → Prop} (h : Compositional own C)
include h

/-- A refused input asks for nothing. -/
theorem of_checked_bind {α β : Type} {result : Except Invalid α} {f : α → Work β}
    (hf : ∀ a, result = .ok a → C β (f a)) : C β (checked result >>= f) := by
  cases hresult : result with
  | ok a => exact hf a hresult
  | error reason => exact h.of_throw _

theorem of_found {α : Type} (result : Except Missing α) : C α (found result) := by
  cases result with
  | ok a => exact h.of_pure a
  | error what => exact h.of_throw _

theorem of_decoded {α : Type} (result : Except Undecodable α) : C α (decoded result) := by
  cases result with
  | ok a => exact h.of_pure a
  | error cause => exact h.of_throw _

end Keys

-- Otherwise numbers would be compared with 2 ^ 64 step by step.
attribute [local irreducible] maxVersion

variable (h : Compositional i.Owns C)
include h

/-! ## Operations on rows -/

theorem octets? : C _ (Rows.octets? i row) :=
  h.of_checked_bind fun key hkey => h.of_ask (.get key) (Identity.owns_key hkey)

theorem put {octets : Bytes} : C _ (Rows.put i row octets) :=
  h.of_checked_bind fun key hkey => h.of_ask (.put key octets) (Identity.owns_key hkey)

theorem erase_row : C _ (Rows.erase i row) :=
  h.of_checked_bind fun key hkey => h.of_ask (.delete key) (Identity.owns_key hkey)

theorem isDescribed : C _ (Rows.isDescribed i) := h.of_bind h.octets? fun _ => h.of_pure _

theorem descriptor? : C _ (Rows.descriptor? i) :=
  h.of_bind h.octets? fun row => by
    cases row with
    | none => exact h.of_pure _
    | some octets => exact h.of_bind (h.of_decoded _) fun _ => h.of_pure _

theorem content? {number : Int} : C _ (Rows.content? i number) := by
  unfold Rows.content?
  split
  · exact h.of_pure _
  · exact h.octets?

theorem versions : C _ (Rows.versions i) :=
  h.of_checked_bind fun start hstart =>
    h.of_bind (h.of_ask (.scan start) (Identity.confined_scan hstart)) fun _ => h.of_decoded _

theorem counter : C _ (Rows.counter i) :=
  h.of_bind h.octets? fun row => by
    cases row with
    | none => exact h.of_pure _
    | some octets => exact h.of_decoded _

theorem putCounter {number : Int} : C _ (Rows.putCounter i number) :=
  h.of_checked_bind fun key hkey => by
    split
    · exact h.of_ask (.put key _) (Identity.owns_key hkey)
    · exact h.of_throw _

/-! ## Operations of the registry -/

theorem descriptorOf : C _ (descriptorOf i) :=
  h.of_bind h.descriptor? fun descriptor => by
    cases descriptor with
    | none => exact h.of_throw _
    | some descriptor => exact h.of_pure _

theorem eraseVersions (versions : List Version) : C _ (eraseVersions i versions) := by
  induction versions with
  | nil => exact h.of_pure _
  | cons version rest ih => exact h.of_bind h.erase_row fun _ => ih

theorem clear : C _ (clear i) :=
  h.of_bind h.versions fun versions =>
    h.of_bind (h.eraseVersions versions) fun _ => h.of_bind h.erase_row fun _ => h.of_pure _

omit h in
theorem describe {draft : Draft} (h : Compositional draft.identity.Owns C) : C _ (describe draft) := by
  refine h.of_checked_bind fun format _ => h.of_bind (h.of_within ?_) fun _ => h.of_noteDone _ _ _
  refine h.of_bind h.isDescribed fun described => ?_
  cases described with
  | true => exact h.put
  | false => exact h.of_bind h.clear fun _ => h.put

theorem append {content : Option Bytes} : C _ (append i content) := by
  refine h.of_checked_bind fun octets _ => h.of_bind (h.of_within ?_) fun _ =>
    h.of_bind (h.of_noteDone _ _ _) fun _ => h.of_pure _
  refine h.of_bind h.descriptorOf fun _ => h.of_bind h.counter fun _ => h.of_bind h.versions fun _ => ?_
  exact h.of_bind h.put fun _ => h.of_bind h.putCounter fun _ => h.of_pure _

theorem entry {number : Option Int} : C _ (entry i number) := by
  refine h.of_within (h.of_bind h.descriptorOf fun _ => h.of_bind h.versions fun _ => ?_)
  exact h.of_bind (h.of_found _) fun _ => h.of_pure _

theorem numbers : C _ (numbers i) :=
  h.of_within (h.of_bind h.descriptorOf fun _ => h.of_bind h.versions fun _ => h.of_pure _)

theorem contains : C _ (contains i) := h.of_within h.isDescribed

theorem eraseVersion {number : Int} : C _ (eraseVersion i number) := by
  refine h.of_bind (h.of_within ?_) fun _ => h.of_noteDone _ _ _
  refine h.of_bind h.descriptorOf fun _ => h.of_bind h.content? fun content => ?_
  cases content with
  | none => exact h.of_bind (h.of_throw _) fun _ => h.erase_row
  | some octets => exact h.erase_row

theorem erase : C _ (erase i) :=
  h.of_bind (h.of_within (h.of_bind h.erase_row fun _ => h.clear)) fun _ => h.of_noteDone _ _ _

end Work.Compositional

/-- **A request has every property that is compositional over the keys of its identity.** -/
theorem Request.of_compositional {C : (α : Type) → Work α → Prop} (request : Request)
    (h : Work.Compositional request.identity.Owns C) : C _ request.work := by
  cases request with
  | describe draft => exact h.of_bind h.describe fun _ => h.of_pure _
  | append i content => exact h.of_bind h.append fun _ => h.of_pure _
  | entry i number => exact h.of_bind h.entry fun _ => h.of_pure _
  | numbers i => exact h.of_bind h.numbers fun _ => h.of_pure _
  | contains i => exact h.of_bind h.contains fun _ => h.of_pure _
  | eraseVersion i number => exact h.of_bind h.eraseVersion fun _ => h.of_pure _
  | erase i => exact h.of_bind h.erase fun _ => h.of_pure _

end Schemata.Catalog

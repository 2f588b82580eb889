import Schemata.Proofs.Catalog.Parts
import Schemata.Proofs.Catalog.Run

/-!
# Identities are isolated from each other

- Whatever a table answers, a request only asks for keys that its identity owns (`Request.confined`).
- So a request changes no row of another identity, and rows of others make no difference to it
  (`request_isolated`).
-/

namespace Schemata.Catalog

open Table (Command Contents Program Script Store Trouble)

/-! ## Keys that are asked for -/

namespace Work

variable {α : Type} {own : Bytes → Prop}

/-- Whatever it is answered, the work only asks for some keys. -/
def Confined (own : Bytes → Prop) (x : Work α) : Prop := Program.Confined own x.run

theorem compositional_confined : Compositional own fun _ x => x.Confined own where
  of_pure _ := trivial
  of_throw _ := trivial
  of_ask _ h := ⟨h, fun answer => by cases answer <;> trivial⟩
  of_noteDone _ _ _ := trivial
  of_bind hx hf := Program.confined_bind hx fun r => by
    cases r with
    | ok a => exact hf a
    | error failure => trivial
  of_within hx := Program.confined_bind hx fun r => by
    cases r with
    | ok a => trivial
    | error failure => cases failure <;> trivial

end Work

/-- **A request only asks for keys of its identity**, whatever a table answers it. -/
theorem Request.confined (request : Request) : request.work.Confined request.identity.Owns :=
  request.of_compositional Work.compositional_confined

/-! ## Isolation -/

/-- The end of a request on a table behind a judge of its commands. -/
def Request.outcome {ρ : Type} (request : Request) (judge : Command → ρ → Option Trouble × ρ) (r : ρ) (store : Store) :
    Table.Outcome (ρ × Store) (Except Failure Reply) :=
  request.work.run.run (Store.backend.guarded judge) (r, store)

/-- **Identities are isolated.** Whatever rows a table holds and whichever commands fail, a request changes no row of
another identity; and on two tables with the same rows of its own identity it ends alike and leaves the same rows of
its own. -/
theorem request_isolated {ρ : Type} (judge : Command → ρ → Option Trouble × ρ) (r : ρ) (request : Request)
    {j : Identity} (hne : j ≠ request.identity) {store : Store} {s : Contents} (hs : store.Holds s) :
    (∀ key, j.Owns key → (request.outcome judge r store).state.2.row? key = store.row? key) ∧
      ∀ (store' : Store) (s' : Contents), store'.Holds s' →
        (∀ key, request.identity.Owns key → store.row? key = store'.row? key) →
          (request.outcome judge r store).value = (request.outcome judge r store').value ∧
            ∀ key, request.identity.Owns key →
              (request.outcome judge r store).state.2.row? key = (request.outcome judge r store').state.2.row? key := by
  have hconfined := request.confined
  have hrun := Program.run_represents Store.represents judge request.work.run r hs
  constructor
  · intro key hkey
    have hother : ¬request.identity.Owns key := fun h => hne (hkey.unique h)
    rw [Request.outcome, hrun.state.2.row?_eq, hs.row?_eq]
    exact Program.Confined.get?_run hconfined judge r hother
  · intro store' s' hs' hagree
    have hrun' := Program.run_represents Store.represents judge request.work.run r hs'
    have halike := Program.Confined.run_agree hconfined judge r (s := s) (t := s') fun key hkey => by
      rw [← hs.row?_eq, ← hs'.row?_eq, hagree key hkey]
    refine ⟨hrun.value.trans (halike.value.trans hrun'.value.symm), fun key hkey => ?_⟩
    rw [Request.outcome, Request.outcome, hrun.state.2.row?_eq, hrun'.state.2.row?_eq]
    exact halike.state.2 key hkey

namespace Sample

/-- An identity whose name another one starts with. -/
def order : Identity := ⟨"", "order"⟩

/-- A row among the versions of one identity that is none, and a row of another identity. -/
def stray (octets : Bytes) : Table.Indexed :=
  (Table.Indexed.empty.put (orders.versionStart ++ [1]) [9]).put (order.stemOctets ++ [descriptorTag]) octets

theorem holds_stray (octets : Bytes) : (Store.memory (stray octets)).Holds
    ((Contents.empty.put (orders.versionStart ++ [1]) [9]).put (order.stemOctets ++ [descriptorTag]) octets) :=
  (Table.Indexed.holds_empty.put _ _).put _ _

theorem row?_stray {key : Bytes} (h : orders.Owns key) (octets octets' : Bytes) :
    (Store.memory (stray octets)).row? key = (Store.memory (stray octets')).row? key := by
  have hkey : key ≠ order.stemOctets ++ [descriptorTag] := by
    rintro rfl
    exact absurd (h.unique (Identity.owns_key (Identity.key_descriptor (by decide)))) (by decide)
  rw [(holds_stray octets).row?_eq, (holds_stray octets').row?_eq]
  simp only [Contents.get?_put, if_neg hkey]

end Sample

/-- An erasure that finds a row it cannot read, with a third command that would fail. -/
theorem request_isolated_orders :
    (∀ key, Sample.order.Owns key →
      ((Request.erase Sample.orders).outcome Script.judge [none, none, some ⟨"disk full"⟩]
        (.memory (Sample.stray [1]))).state.2.row? key = (Store.memory (Sample.stray [1])).row? key) ∧
      ((Request.erase Sample.orders).outcome Script.judge [none, none, some ⟨"disk full"⟩]
        (.memory (Sample.stray [1]))).value =
      ((Request.erase Sample.orders).outcome Script.judge [none, none, some ⟨"disk full"⟩]
        (.memory (Sample.stray [2]))).value := by
  obtain ⟨hkept, halike⟩ := request_isolated Script.judge [none, none, some ⟨"disk full"⟩] (.erase Sample.orders)
    (j := Sample.order) (by decide) (Sample.holds_stray [1])
  exact ⟨hkept, (halike _ _ (Sample.holds_stray [2]) fun key hkey => Sample.row?_stray hkey [1] [2]).1⟩

end Schemata.Catalog

import Schemata.Proofs.Table.Holding

/-!
# Where a program can end

`p.Ends may s a t` says that from contents `s` the program `p` can end with `a` at contents `t`, when any command may
fail without effect with a trouble that `may` allows. Nothing is allowed to fail in `p.Ends Calm`.

- An end of `p >>= f` is one of `p` and then one of `f` (`ends_bind`).
- The run of a program on a table that holds contents is one of its ends (`ends_run`), also behind a script of failures
  (`ends_run_guarded`).
-/

namespace Schemata.Table

/-- No trouble at all. -/
def Calm : Trouble → Prop := fun _ => False

namespace Program

variable {α β : Type}

/-- The ends that a program can come to, any of its commands failing with a trouble that may be. -/
def Ends (may : Trouble → Prop) : Program α → Contents → α → Contents → Prop
  | .done a, s, b, t => b = a ∧ t = s
  | .ask c next, s, b, t =>
    (∃ trouble, may trouble ∧ (next (.error trouble)).Ends may s b t) ∨
      (next (.ok (s.answer c).1)).Ends may (s.answer c).2 b t
  | .note _ next, s, b, t => next.Ends may s b t

/-! ## Sequences -/

theorem ends_bind {may : Trouble → Prop} {p : Program α} {f : α → Program β} {s t : Contents} {b : β} :
    (p >>= f).Ends may s b t ↔ ∃ a u, p.Ends may s a u ∧ (f a).Ends may u b t := by
  induction p generalizing s with
  | done a => simp [Ends, and_assoc]
  | ask c next ih =>
    rw [bind_ask, Ends]
    simp only [ih, Ends]
    constructor
    · rintro (⟨trouble, hm, a, u, h⟩ | ⟨a, u, h⟩)
      · exact ⟨a, u, Or.inl ⟨trouble, hm, h.1⟩, h.2⟩
      · exact ⟨a, u, Or.inr h.1, h.2⟩
    · rintro ⟨a, u, ⟨trouble, hm, h⟩ | h, hf⟩
      · exact Or.inl ⟨trouble, hm, a, u, h, hf⟩
      · exact Or.inr ⟨a, u, h, hf⟩
  | note r next ih => exact ih

/-! ## Runs on tables -/

section Run

variable {σ : Type} {backend : Backend σ} {holds : σ → Contents → Prop} (hb : backend.Represents holds)
include hb

/-- A run on a table that holds contents comes to an end of the program, and the table then holds what is left. -/
theorem ends_run (p : Program α) {state : σ} {s : Contents} (hs : holds state s) :
    ∃ t, holds (p.run backend state).state t ∧ p.Ends Calm s (p.run backend state).value t := by
  induction p generalizing state s with
  | done a => exact ⟨s, hs, rfl, rfl⟩
  | ask c next ih =>
    obtain ⟨hanswer, hafter⟩ := hb c state s hs
    obtain ⟨t, ht, hends⟩ := ih (backend.answer c state).1 hafter
    refine ⟨t, ht, Or.inr ?_⟩
    rwa [← hanswer]
  | note r next ih => exact ih hs

/-- The same behind a script, whose troubles are the ones that may be. -/
theorem ends_run_guarded (p : Program α) {may : Trouble → Prop} {script : Script}
    (hscript : ∀ trouble, some trouble ∈ script → may trouble) {state : σ} {s : Contents} (hs : holds state s) :
    ∃ t, holds (p.run (backend.guarded Script.judge) (script, state)).state.2 t ∧
      p.Ends may s (p.run (backend.guarded Script.judge) (script, state)).value t := by
  induction p generalizing script state s with
  | done a => exact ⟨s, hs, rfl, rfl⟩
  | ask c next ih =>
    obtain ⟨hanswer, hafter⟩ := hb c state s hs
    rw [run_ask]
    rcases script with _ | ⟨_ | trouble, rest⟩
    · obtain ⟨t, ht, hends⟩ := ih (backend.answer c state).1 hscript hafter
      refine ⟨t, ht, Or.inr ?_⟩
      rwa [← hanswer]
    · have hrest : ∀ trouble, some trouble ∈ rest → may trouble := fun trouble h =>
        hscript trouble (List.mem_cons_of_mem _ h)
      obtain ⟨t, ht, hends⟩ := ih (backend.answer c state).1 hrest hafter
      refine ⟨t, ht, Or.inr ?_⟩
      rwa [← hanswer]
    · have hrest : ∀ trouble, some trouble ∈ rest → may trouble := fun trouble h =>
        hscript trouble (List.mem_cons_of_mem _ h)
      obtain ⟨t, ht, hends⟩ := ih (.error trouble) hrest hs
      exact ⟨t, ht, Or.inl ⟨trouble, hscript trouble List.mem_cons_self, hends⟩⟩
  | note r next ih => exact ih hscript hs

end Run

end Program

end Schemata.Table

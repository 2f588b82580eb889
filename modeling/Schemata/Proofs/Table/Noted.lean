import Schemata.Table.Program

/-!
# What programs note

A program notes only records of some kind when every record that it comes to is of that kind, whatever its commands are
answered with (`Program.NotesOnly`). Then the log of every run holds only such records (`NotesOnly.of_mem_log`), and
none on a channel that the kind leaves out (`NotesOnly.on_eq_nil`).
-/

namespace Schemata.Table

variable {σ α β : Type}

/-- The records of a run on one channel. -/
def Outcome.on (outcome : Outcome σ α) (channel : Log.Channel) : List Log.Record :=
  outcome.log.filter (·.channel = channel)

namespace Program

/-- Whatever it is answered, a program notes records of one kind alone. -/
def NotesOnly (P : Log.Record → Prop) : Program α → Prop
  | .done _ => True
  | .ask _ next => ∀ answer, (next answer).NotesOnly P
  | .note record next => P record ∧ next.NotesOnly P

variable {P : Log.Record → Prop} {p : Program α} {f : α → Program β}

theorem NotesOnly.bind (hp : p.NotesOnly P) (hf : ∀ a, (f a).NotesOnly P) : (p >>= f).NotesOnly P := by
  induction p with
  | done a => exact hf a
  | ask c next ih => exact fun answer => ih answer (hp answer)
  | note r next ih => exact ⟨hp.1, ih hp.2⟩

/-- **The log of every run** holds records of that kind alone. -/
theorem NotesOnly.of_mem_log (hp : p.NotesOnly P) {backend : Backend σ} {s : σ} {record : Log.Record}
    (h : record ∈ (p.run backend s).log) : P record := by
  induction p generalizing s with
  | done a => cases h
  | ask c next ih => exact ih _ (hp _) h
  | note r next ih =>
    rcases List.mem_cons.1 h with rfl | h
    · exact hp.1
    · exact ih hp.2 h

theorem NotesOnly.on_eq_nil {channel : Log.Channel} (hp : p.NotesOnly (·.channel ≠ channel)) (backend : Backend σ)
    (s : σ) : (p.run backend s).on channel = [] := by
  rw [Outcome.on, List.filter_eq_nil_iff]
  intro record h
  simpa using hp.of_mem_log h

end Program

end Schemata.Table

import Schemata.Table.Program

/-!
# Faults on purpose

A fault makes one kind of command fail from some point on: it spares a number of commands of its kind and then fails
all of them with one message. A kind has at most one fault; a new one takes the old one's place.
-/

namespace Schemata.Table

/-- A failure that lasts. -/
structure Fault where
  spared : Nat
  message : String
  deriving DecidableEq, Repr

/-- The fault of each kind of command. -/
structure Faults where
  /-- The fault of a kind, if it has one. -/
  of : Command.Kind → Option Fault

namespace Faults

/-- No faults. -/
def none : Faults := ⟨fun _ => Option.none⟩

/-- Puts a fault on a kind of command. -/
def set (kind : Command.Kind) (fault : Fault) (faults : Faults) : Faults :=
  ⟨fun k => if k = kind then some fault else faults.of k⟩

/-- Whether a command fails, and the faults after it. -/
def judge (command : Command) (faults : Faults) : Option Trouble × Faults :=
  match faults.of command.kind with
  | Option.none => (Option.none, faults)
  | some ⟨0, message⟩ => (some ⟨message⟩, faults)
  | some ⟨spared + 1, message⟩ => (Option.none, faults.set command.kind ⟨spared, message⟩)

@[simp] theorem judge_none (command : Command) : none.judge command = (Option.none, none) := rfl

end Faults

end Schemata.Table

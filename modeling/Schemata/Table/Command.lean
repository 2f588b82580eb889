import Schemata.Bytes

/-!
# Commands to a table

A table holds rows, each a key with a value, and answers four commands, one at a time and each as a whole. An answer's
type follows from its command (`Command.Answer`). Any command may fail, which is a `Trouble`.
-/

namespace Schemata.Table

/-- A key and its value. -/
abbrev Row := Bytes × Bytes

/-- What a table is asked to do. -/
inductive Command where
  | get (key : Bytes)
  /-- Give a key a value, in place of any it has. -/
  | put (key value : Bytes)
  /-- Take a key and its value out, if they are there. -/
  | delete (key : Bytes)
  /-- Tell the rows whose keys start with the given octets, in ascending order of keys. -/
  | scan (start : Bytes)
  deriving DecidableEq, Repr

namespace Command

/-- What a command is answered with. -/
abbrev Answer : Command → Type
  | .get _ => Option Bytes
  | .put _ _ => Unit
  | .delete _ => Unit
  | .scan _ => List Row

/-- The kinds of commands. -/
inductive Kind where
  | get
  | put
  | delete
  | scan
  deriving DecidableEq, Repr

/-- The kind of a command. -/
def kind : Command → Kind
  | .get _ => .get
  | .put _ _ => .put
  | .delete _ => .delete
  | .scan _ => .scan

/-- Whether a command can change rows. -/
def isWrite : Command → Bool
  | .put _ _ | .delete _ => true
  | .get _ | .scan _ => false

end Command

/-- Why a command failed. -/
structure Trouble where
  message : String
  deriving DecidableEq, Repr

end Schemata.Table

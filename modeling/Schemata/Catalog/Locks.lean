import Schemata.Catalog.Identity

/-!
# Locks of identities

Operations that change an identity exclude each other by a lock of that identity. Locks are made when they are first
asked for and forgotten when nobody uses them. A caller goes through four steps, and other callers may take steps
between any two of them:

* it enters: it looks the lock of its identity up, or makes it, and is counted as a user (`Locks.enter`);
* it acquires the lock once nobody holds it (`Locks.acquire`);
* it releases the lock (`Locks.release`);
* it leaves: it is counted out, and the last user takes the lock out of the table (`Locks.leave`).

Every lock that was ever made keeps its number, so a caller that entered knows its lock whatever the table says.
-/

namespace Schemata.Catalog

/-- A lock. -/
structure Lock where
  /-- How many callers have entered and not left. -/
  users : Nat
  holder : Option Nat
  deriving DecidableEq, Repr

/-- All locks and the table of those in use. -/
structure Locks where
  made : List Lock
  /-- The number of each identity's lock. -/
  table : List (Identity × Nat)
  deriving DecidableEq, Repr

namespace Locks

/-- No locks. -/
def empty : Locks := ⟨[], []⟩

/-- Changes one lock. -/
def update (locks : Locks) (number : Nat) (change : Lock → Lock) : Locks :=
  { locks with made := locks.made.modify number change }

/-- Counts a user of the lock of an identity, which is made if there is none, and tells its number. -/
def enter (locks : Locks) (identity : Identity) : Nat × Locks :=
  match locks.table.lookup identity with
  | some number => (number, locks.update number fun lock => { lock with users := lock.users + 1 })
  | none => (locks.made.length, ⟨locks.made ++ [⟨1, none⟩], (identity, locks.made.length) :: locks.table⟩)

/-- Gives a caller a lock that nobody holds. -/
def acquire (locks : Locks) (number caller : Nat) : Option Locks :=
  match locks.made[number]? with
  | some ⟨_, none⟩ => some (locks.update number fun lock => { lock with holder := some caller })
  | _ => none

/-- Takes a lock from its holder. -/
def release (locks : Locks) (number : Nat) : Locks :=
  locks.update number fun lock => { lock with holder := none }

/-- Counts a user out; the last one takes the identity out of the table. -/
def leave (locks : Locks) (number : Nat) (identity : Identity) : Locks :=
  let left := locks.update number fun lock => { lock with users := lock.users - 1 }
  match left.made[number]? with
  | some ⟨0, _⟩ => { left with table := left.table.filter (·.1 ≠ identity) }
  | _ => left

end Locks

end Schemata.Catalog

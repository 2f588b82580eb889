import Schemata.Text.Split

/-!
# Locations of files

A location is written with slashes between its parts. Empty parts and single dots mean nothing and are left out; double
dots stay. One leading slash, or exactly two, say that the location starts at the top. A location that starts at the top
is not changed by the one it is joined to.
-/

namespace Schemata

/-- A location of a file or a directory. -/
structure Location where
  /-- How many slashes it starts with: none, one or two. -/
  slashes : Nat
  parts : List String
  deriving DecidableEq, Repr

namespace Location

/-- The location that a text shows. -/
def ofText (text : String) : Location :=
  let cs := text.toList
  let leading := (cs.takeWhile (· = '/')).length
  ⟨if leading = 0 then 0 else if leading = 2 then 2 else 1,
    ((Text.splitOn '/' cs).map String.ofList).filter fun part => part ≠ "" ∧ part ≠ "."⟩

/-- The location as a text; a single dot stands for no parts at all. -/
def text (location : Location) : String :=
  let shown := "".pushn '/' location.slashes ++ "/".intercalate location.parts
  if shown.isEmpty then "." else shown

/-- A location seen from another one. -/
def join (base location : Location) : Location :=
  if location.slashes = 0 then ⟨base.slashes, base.parts ++ location.parts⟩ else location

/-- The location whose text names no file, but one in memory. -/
def nowhere : Location := ⟨0, [":memory:"]⟩

/-- The directory that a location lies in. -/
def parent (location : Location) : Location := { location with parts := location.parts.dropLast }

/-- The location and all directories above it, the nearest first. -/
def upward (location : Location) : List Location :=
  (List.range (location.parts.length + 1)).map fun n =>
    { location with parts := location.parts.take (location.parts.length - n) }

end Location

end Schemata

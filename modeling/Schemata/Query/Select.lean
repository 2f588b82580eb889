import Schemata.Json.Text
import Schemata.Query.Grammar
import Schemata.Query.Match

/-!
# Selecting from a document

`select` evaluates paths on a document. A definite path gives its match and fails without one; any other path gives
the list of its matches. Several paths give the list of their results, and the first that fails decides. `selectText`
reads the document from a text first.
-/

namespace Schemata.Query

open Json (Value)

/-- Why a path gives no result. -/
inductive PathFailure where
  | notText (path : Value)
  /-- What stands for a path is no text, and holds an integer that cannot be put into words. -/
  | unwritable
  | malformed (path : String)
  | noMatch (path : String)
  /-- The text breaks off at a whole number of too many digits. -/
  | tooManyDigits (count : Nat)
  /-- The path cannot be followed to its end. -/
  | blocked (obstacle : Obstacle)

/-- The obstacle in words. -/
def Obstacle.message : Obstacle → String
  | .notIterable => "'DatumInContext' object is not iterable"
  | .notSized => "object of type 'DatumInContext' has no len()"
  | .unordered kinds =>
    "'<' not supported between instances of '" ++ kinds.first ++ "' and '" ++ kinds.second ++ "'"
  | .noContainer => ""
  | .notReached kind => "'" ++ kind ++ "' object has no attribute 'value'"

/-- The failure in words. The grammar's own account of a malformed path, which follows the path behind a colon, is left
out. -/
def PathFailure.message : PathFailure → String
  | .notText path => "Invalid JSON path " ++ path.shown ++ ": expected a string"
  | .unwritable => Text.unwritableMessage
  | .malformed path => "Invalid JSON path '" ++ path ++ "'"
  | .noMatch path => "No results for path '" ++ path ++ "'"
  | .tooManyDigits count => Json.tooManyDigitsMessage count
  | .blocked obstacle => obstacle.message

/-- The path that is at fault, as text, if it is one. -/
def PathFailure.path? : PathFailure → Option String
  | .notText path => some path.shown
  | .malformed path => some path
  | .noMatch path => some path
  | .unwritable | .tooManyDigits _ | .blocked _ => none

/-- The values that a path leads to in a document, in order. A path that begins with a sort has reached nothing that it
could sort. -/
def Path.values (path : Path) (document : Value) : Except Obstacle (List Value) :=
  if path.beginsWithSort then .error (.notReached document.kindName)
  else do
    let found ← (← path.find (.ofDocument document)).toList
    return found.map Node.value

/-- What a path gives on a document. -/
def Path.result? (path : Path) (document : Value) : Except Obstacle (Option Value) := do
  let found ← path.values document
  return if path.isDefinite then found.head? else some (.array found)

/-- Evaluates one path on a document. -/
def readOne (document : Value) : Value → Except PathFailure Value
  | .string text =>
    match Path.ofText text with
    | .error .malformed => .error (.malformed text)
    | .error (.tooManyDigits count) => .error (.tooManyDigits count)
    | .ok path =>
      match path.result? document with
      | .ok (some v) => .ok v
      | .ok none => .error (.noMatch text)
      | .error obstacle => .error (.blocked obstacle)
  | v => .error (if (v.refusal? .unlimited 0).isNone then .notText v else .unwritable)

/-- Evaluates paths in order. -/
def readAll (document : Value) : List Value → Except PathFailure (List Value)
  | [] => .ok []
  | path :: rest => do
    let v ← readOne document path
    let vs ← readAll document rest
    .ok (v :: vs)

/-- Evaluates one path, or several as a list, on a document whose names are put into small letters if that is asked
for. -/
def select (toLower : Bool) (document : Value) (path : Value) (others : List Value) : Except PathFailure Value :=
  let document := if toLower then document.lowerKeys else document
  if others.isEmpty then readOne document path else (readAll document (path :: others)).map .array

/-- Why a selection from a text gives nothing. -/
inductive TextFailure where
  | unread (failure : Json.ParseFailure)
  | unselected (failure : PathFailure)

/-- Evaluates paths as `select` does, on the document of a text. -/
def selectText (toLower : Bool) (text path : Value) (others : List Value) (room : Json.Room := .unlimited) :
    Except TextFailure Value :=
  match Json.parseValue text room with
  | .ok document => (select toLower document path others).mapError .unselected
  | .error failure => .error (.unread failure)

end Schemata.Query

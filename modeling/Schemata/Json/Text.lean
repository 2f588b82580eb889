import Schemata.Json.Keys
import Schemata.Json.Reader
import Schemata.Json.Writer

/-!
# Texts and values

What is offered on values and on their texts: `parseValue` reads a text and refuses any other value, `stringify` writes
the compact text of a value, `elementCount` counts the elements of an array given as a value or as its text, and `join`
strings the scalars of an array together. A call that reads or writes has room for so many open containers.
-/

namespace Schemata.Json

/-- Why a text entry point fails. -/
inductive ParseFailure where
  | nothing
  /-- A value of another kind stands where a text is due. -/
  | notText (kind : String)
  | malformed (cause : Fault) (position : Nat)
  /-- The text holds an integer with too many digits. -/
  | tooManyDigits (count : Nat)
  /-- The text holds a container for which there is no room. -/
  | tooDeep (container : Container)
  deriving DecidableEq, Repr

/-- The failure in words. -/
def ParseFailure.message : ParseFailure → String
  | .nothing => "Cannot parse JSON from null input"
  | .notText kind => "Cannot parse JSON from " ++ kind
  | .malformed cause _ => "Malformed JSON: " ++ cause.message
  | .tooManyDigits count => tooManyDigitsMessage count
  | .tooDeep container => tooDeepMessage container

/-- Reads a text as a document. -/
def parseText (text : String) (room : Room := .unlimited) : Except ParseFailure Value :=
  match parse text room with
  | .ok v => .ok v
  | .error (.malformed cause position) => .error (.malformed cause position)
  | .error (.tooManyDigits count) => .error (.tooManyDigits count)
  | .error (.tooDeep container) => .error (.tooDeep container)

/-- Reads a value that has to be a text. -/
def parseValue (v : Value) (room : Room := .unlimited) : Except ParseFailure Value :=
  match v with
  | .string text => parseText text room
  | .null => .error .nothing
  | v => .error (.notText v.kindName)

/-- Reads a value that has to be a text, with its names in small letters if that is asked for. -/
def parseLowered (toLower : Bool) (v : Value) (room : Room := .unlimited) : Except ParseFailure Value :=
  (parseValue v room).map fun v => if toLower then v.lowerKeys else v

/-- Reads a text and takes the named fields out. -/
def parseWithout (names : List String) (v : Value) (room : Room := .unlimited) : Except ParseFailure Value :=
  (parseValue v room).map (Value.without names)

/-- Writes a value without spaces between its tokens. -/
def stringify (v : Value) (room : Room := .unlimited) : Except WriteFailure String :=
  match v.refusal? room 0 with
  | none => .ok v.compact
  | some failure => .error failure

/-- The count of elements: of an array, or of the array that a text holds. Anything else has none. -/
def elementCount (v : Value) (room : Room := .unlimited) : Except ParseFailure Nat := do
  let v ← match v with
    | .string text => parseText text room
    | v => .ok v
  match v with
  | .array elements => .ok elements.length
  | _ => .ok 0

/-- The text of a scalar inside a joined text; containers and null have none. -/
def joinedText? : Value → Option (Except WriteFailure String)
  | .bool b => some (.ok (if b then "true" else "false"))
  | .int n => some (if Text.isWritable n then .ok (Text.ofInt n) else .error .tooManyDigits)
  | .double d => some (.ok d.text)
  | .string s => some (.ok s)
  | _ => none

/-- The scalars of an array, each followed by the separator. -/
def join (separator : String) : Value → Except WriteFailure String
  | .array elements => do
    let texts ← (elements.filterMap joinedText?).mapM id
    return String.join (texts.map (· ++ separator))
  | _ => .ok ""

end Schemata.Json

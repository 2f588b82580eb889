import Schemata.Bytes.Hex
import Schemata.Json.Value
import Schemata.Number.Shortest
import Schemata.Text.Quoted

/-!
# JSON text of a value

`Value.write` writes a value in a `Style`: the texts between items and after names, and whether characters outside
ASCII are escaped. The compact style puts nothing between tokens and keeps every character that needs no escape; the
row style puts a space after commas and colons and writes plain ASCII, with surrogate pairs above `U+FFFF`.
`Value.refusal?` tells what keeps a value from being written. `Value.shown` is the form in which a value is named in a
message.
-/

namespace Schemata.Json

/-- How a JSON text is laid out. -/
structure Style where
  comma : String
  colon : String
  /-- Whether only printable ASCII is written as it is. -/
  asciiOnly : Bool

/-- No space between tokens, characters as they are. -/
def Style.compact : Style := ⟨",", ":", false⟩

/-- A space after commas and colons, ASCII alone. -/
def Style.row : Style := ⟨", ", ": ", true⟩

/-! ## Strings -/

/-- One unit of UTF-16 behind a backslash. -/
def escapedUnit (n : Nat) : List Char := '\\' :: 'u' :: Text.hexDigits 4 n

/-- A code point as one unit of UTF-16, or as a pair above `U+FFFF`. -/
def escapedUnits (n : Nat) : List Char :=
  if n < 0x10000 then escapedUnit n
  else escapedUnit (0xd800 + (n - 0x10000) / 0x400) ++ escapedUnit (0xdc00 + (n - 0x10000) % 0x400)

/-- One character inside a JSON string. -/
def stringChar (asciiOnly : Bool) (c : Char) : List Char :=
  if c = '"' ∨ c = '\\' then ['\\', c]
  else if c = '\n' then ['\\', 'n']
  else if c = '\r' then ['\\', 'r']
  else if c = '\t' then ['\\', 't']
  else if c = '\x08' then ['\\', 'b']
  else if c = '\x0c' then ['\\', 'f']
  else if c.toNat < 0x20 then escapedUnit c.toNat
  else if asciiOnly ∧ 0x7f ≤ c.toNat then escapedUnits c.toNat
  else [c]

/-- A string in double quotes. -/
def stringText (asciiOnly : Bool) (s : String) : List Char :=
  '"' :: s.toList.flatMap (stringChar asciiOnly) ++ ['"']

/-! ## Numbers -/

/-- The text of a double: its shortest digits, or a name where there are none. -/
def doubleText : Double → List Char
  | .nan => ['N', 'a', 'N']
  | .infinite negative => (if negative then ['-'] else []) ++ ['I', 'n', 'f', 'i', 'n', 'i', 't', 'y']
  | d => d.text.toList

/-! ## Values -/

mutual

/-- The text of a value. -/
def Value.text (style : Style) : Value → List Char
  | .null => ['n', 'u', 'l', 'l']
  | .bool true => ['t', 'r', 'u', 'e']
  | .bool false => ['f', 'a', 'l', 's', 'e']
  | .int n => Text.decimalInt n
  | .double d => doubleText d
  | .string s => stringText style.asciiOnly s
  | .array elements => '[' :: elementsText style elements ++ [']']
  | .object fields => '{' :: fieldsText style fields ++ ['}']

/-- The texts of elements with commas between them. -/
def elementsText (style : Style) : List Value → List Char
  | [] => []
  | [v] => v.text style
  | v :: rest => v.text style ++ style.comma.toList ++ elementsText style rest

/-- The texts of fields with commas between them. -/
def fieldsText (style : Style) : List (String × Value) → List Char
  | [] => []
  | [(name, v)] => stringText style.asciiOnly name ++ style.colon.toList ++ v.text style
  | (name, v) :: rest =>
    stringText style.asciiOnly name ++ style.colon.toList ++ v.text style ++ style.comma.toList
      ++ fieldsText style rest

end

/-- The text of a value in a style. -/
def Value.write (style : Style) (v : Value) : String := String.ofList (v.text style)

/-- The compact text of a value. -/
def Value.compact (v : Value) : String := v.write .compact

/-! ## Values that are not written -/

/-- Why a value is not written. -/
inductive WriteFailure where
  /-- It holds a container for which there is no room. -/
  | tooDeep
  /-- It holds an integer with too many digits. -/
  | tooManyDigits
  deriving DecidableEq, Repr

/-- The failure in words. -/
def WriteFailure.message : WriteFailure → String
  | .tooDeep => "maximum recursion depth exceeded while encoding a JSON object"
  | .tooManyDigits => Text.unwritableMessage

mutual

/-- What keeps a value inside `depth` containers from being written: whichever comes first in its text, a container
without room or an integer with too many digits. -/
def Value.refusal? (room : Room) (depth : Nat) : Value → Option WriteFailure
  | .int n => if Text.isWritable n then none else some .tooManyDigits
  | .array elements =>
    if room.holds (depth + 1) then elementsRefusal? room (depth + 1) elements else some .tooDeep
  | .object fields =>
    if room.holds (depth + 1) then fieldsRefusal? room (depth + 1) fields else some .tooDeep
  | .null | .bool _ | .double _ | .string _ => none

/-- What keeps elements from being written. -/
def elementsRefusal? (room : Room) (depth : Nat) : List Value → Option WriteFailure
  | [] => none
  | v :: rest => (v.refusal? room depth).or (elementsRefusal? room depth rest)

/-- What keeps the values of fields from being written. -/
def fieldsRefusal? (room : Room) (depth : Nat) : List (String × Value) → Option WriteFailure
  | [] => none
  | (_, v) :: rest => (v.refusal? room depth).or (fieldsRefusal? room depth rest)

end

/-! ## Values in messages -/

/-- How a value's kind is named. -/
def Value.kindName : Value → String
  | .null => "NoneType"
  | .bool _ => "bool"
  | .int _ => "int"
  | .double _ => "float"
  | .string _ => "str"
  | .array _ => "list"
  | .object _ => "dict"

mutual

/-- A value as it is shown in a message: texts in quotes, `True`, `False` and `None`. -/
def Value.shown : Value → String
  | .null => "None"
  | .bool b => if b then "True" else "False"
  | .int n => String.ofList (Text.decimalInt n)
  | .double d => d.text
  | .string s => Text.quoted s
  | .array elements => "[" ++ shownElements elements ++ "]"
  | .object fields => "\x7b" ++ shownFields fields ++ "\x7d"

/-- Shown elements with commas between them. -/
def shownElements : List Value → String
  | [] => ""
  | [v] => v.shown
  | v :: rest => v.shown ++ ", " ++ shownElements rest

/-- Shown fields with commas between them. -/
def shownFields : List (String × Value) → String
  | [] => ""
  | [(name, v)] => Text.quoted name ++ ": " ++ v.shown
  | (name, v) :: rest => Text.quoted name ++ ": " ++ v.shown ++ ", " ++ shownFields rest

end

end Schemata.Json

import Schemata.Json.Value
import Schemata.Text.Blank
import Schemata.Text.Decimal
import Schemata.Text.Integer

/-!
# Typed fields from loose values

Settings and envelopes are filled from values that come from outside, some of them texts. A field takes what clearly
means a value of its type: an integer field also truths, whole doubles and texts that show an integer; a truth field
also zero, one and the usual words. Everything else is a `Misfit`. All misfits of a form are told together, each with
its place (`Misfits`).
-/

namespace Schemata.Form

open Json (Value)

/-- Why a value does not fit a field. -/
inductive Misfit where
  | intParsing
  | intParsingSize
  | intType
  | intFromFloat
  | finiteNumber
  /-- A text or number that means no truth. -/
  | boolParsing
  | boolType
  | stringType
  | listType
  | literal
  /-- A field that the form does not have. -/
  | extra
  deriving DecidableEq, Repr

/-- How a misfit is called. -/
def Misfit.name : Misfit → String
  | intParsing => "int_parsing"
  | intParsingSize => "int_parsing_size"
  | intType => "int_type"
  | intFromFloat => "int_from_float"
  | finiteNumber => "finite_number"
  | boolParsing => "bool_parsing"
  | boolType => "bool_type"
  | stringType => "string_type"
  | listType => "list_type"
  | literal => "literal_error"
  | extra => "extra_forbidden"

/-- Misfits with their places. -/
abbrev Misfits := List (String × Misfit)

/-! ## Integers -/

/-- An integer as JSON writes it, of `Text.maxDigits` digits at most. -/
def plainInt (cs : List Char) : Except Misfit Int :=
  let digits := match cs with
    | '-' :: rest => rest
    | _ => cs
  let value (ds : List Char) : Int :=
    if cs.head? = some '-' then -(Text.digitsValue ds : Int) else Text.digitsValue ds
  match digits with
  | ['0'] => .ok 0
  | '0' :: _ => .error .intParsing
  | _ =>
    let run := digits.takeWhile Char.isDigit
    if run.isEmpty then .error .intParsing
    else if Text.maxDigits < run.length then .error .intParsingSize
    else if run.length < digits.length then .error .intParsing
    else .ok (value run)

/-- What follows leading zeros and underscores among them, be it a digit or a minus sign; the last of them stays if it ends
the text or stands before a point. -/
def withoutZeros (previous : Char) : List Char → Option (List Char)
  | [] => some [previous]
  | c :: rest =>
    if c = '0' ∨ c = '_' then withoutZeros c rest
    else if c.isDigit ∨ c = '-' then some (c :: rest)
    else if c = '.' then some (previous :: c :: rest)
    else none

/-- The text without leading zeros, if it starts as an integer does. -/
def withoutLeadingZeros : List Char → Option (List Char)
  | '0' :: rest => withoutZeros '0' rest
  | c :: rest => if c.isDigit then some (c :: rest) else none
  | [] => none

/-- The text without a fraction of zeros. -/
def withoutZeroFraction (cs : List Char) : List Char :=
  match cs.dropWhile (· ≠ '.') with
  | '.' :: fraction => if fraction ≠ [] ∧ fraction.all (· = '0') then cs.takeWhile (· ≠ '.') else cs
  | _ => cs

/-- Whether underscores stand singly inside the text. -/
def singleUnderscores : List Char → Bool
  | [] => true
  | ['_'] => false
  | '_' :: '_' :: _ => false
  | _ :: rest => singleUnderscores rest

/-- The text without underscores, if they stand singly inside it. -/
def withoutUnderscores (cs : List Char) : List Char :=
  if cs.head? ≠ some '_' ∧ singleUnderscores cs then cs.filter (· ≠ '_') else cs

/-- The text of a number without leading zeros, a fraction of zeros and underscores. -/
def tidiedDigits (cs : List Char) : Option (List Char) :=
  (withoutLeadingZeros cs).map fun cs => withoutUnderscores (withoutZeroFraction cs)

/-- The text without blanks around it, a plus sign, and what the digits do not need. -/
def tidied (cs : List Char) : Option (List Char) :=
  match Text.trimBoth Text.isNumberBlank cs with
  | '+' :: digits => tidiedDigits digits
  | '-' :: digits => (tidiedDigits digits).map ('-' :: ·)
  | digits => tidiedDigits digits

/-- The integer that a text shows. Only a text that needs no tidying is refused for its size. -/
def intOfText (text : String) : Except Misfit Int :=
  match plainInt text.toList with
  | .ok n => .ok n
  | .error .intParsingSize => .error .intParsingSize
  | .error _ =>
    match (tidied text.toList).map plainInt with
    | some (.ok n) => .ok n
    | _ => .error .intParsing

/-- The integer that a whole double is, if it lies within 63 bits. -/
def intOfDouble (d : Double) : Except Misfit Int :=
  match d with
  | .nan | .infinite _ => .error .finiteNumber
  | _ =>
    match d.toInt? with
    | none => .error .intFromFloat
    | some n => if n.natAbs < Nat.pow 2 63 then .ok n else .error .intParsingSize

/-- The value of an integer field. -/
def int : Value → Except Misfit Int
  | .int n => .ok n
  | .bool b => .ok (if b then 1 else 0)
  | .double d => intOfDouble d
  | .string s => intOfText s
  | _ => .error .intType

/-! ## Truths -/

/-- The words for true. -/
def trueWords : List String := ["1", "true", "t", "yes", "y", "on"]
/-- The words for false. -/
def falseWords : List String := ["0", "false", "f", "no", "n", "off"]

/-- The truth that zero or one stands for. -/
def boolOfInt (n : Int) : Except Misfit Bool :=
  if n = 1 then .ok true else if n = 0 then .ok false else .error .boolParsing

/-- The value of a truth field. An integer of more than 64 bits is not even looked at. -/
def bool : Value → Except Misfit Bool
  | .bool b => .ok b
  | .int n => if -Int.pow 2 63 ≤ n ∧ n < Int.pow 2 63 then boolOfInt n else .error .boolType
  | .double d =>
    match intOfDouble d with
    | .ok n => boolOfInt n
    | .error _ => .error .boolType
  | .string s =>
    let word := s.map Char.toLower
    if word ∈ trueWords then .ok true else if word ∈ falseWords then .ok false else .error .boolParsing
  | _ => .error .boolType

/-! ## Texts, words and lists -/

/-- The value of a text field. -/
def text : Value → Except Misfit String
  | .string s => .ok s
  | _ => .error .stringType

/-- The value of a field that takes one of some words. -/
def word (words : List String) : Value → Except Misfit String
  | .string s => if s ∈ words then .ok s else .error .literal
  | _ => .error .literal

/-- The value of a list field. -/
def list : Value → Except Misfit (List Value)
  | .array elements => .ok elements
  | _ => .error .listType

/-- The value of a field that takes a list of texts; each element is told by its number. -/
def texts (place : String) (value : Value) : Except Misfits (List String) :=
  match list value with
  | .error misfit => .error [(place, misfit)]
  | .ok elements =>
    let read := elements.zipIdx.map fun (element, n) => (text element).mapError ((place ++ "." ++ Text.ofNat n, ·))
    match read.filterMap fun r => match r with
      | .error misfit => some misfit
      | .ok _ => none with
    | [] => .ok (read.filterMap Except.toOption)
    | misfits => .error misfits

/-! ## Forms -/

/-- A field of a form: its value if it was given and fits, and otherwise its default. -/
def field {α : Type} (fields : Json.Fields) (name : String) (fallback : α) (read : Value → Except Misfit α) :
    Except Misfits α :=
  match Json.field? name fields with
  | none => .ok fallback
  | some value => (read value).mapError fun misfit => [(name, misfit)]

/-- Two readings together: both values, or the misfits of both. -/
def both {α β : Type} (a : Except Misfits α) (b : Except Misfits β) : Except Misfits (α × β) :=
  match a, b with
  | .ok a, .ok b => .ok (a, b)
  | .error m, .ok _ => .error m
  | .ok _, .error m => .error m
  | .error m, .error n => .error (m ++ n)

end Schemata.Form

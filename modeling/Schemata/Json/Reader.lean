import Schemata.Bytes.Hex
import Schemata.Json.Value
import Schemata.Text.Decimal
import Schemata.Text.Integer

/-!
# Reading JSON text

`parse` reads one document. It keeps the containers that are not yet closed on an explicit stack (`Frame`), so that one
loop over the text (`read`) reads values of any depth, and every failure carries the rest of the text at its place. No
more containers are opened than the call has room for (`Room`).
Blanks are the space, the tab and the two line ends; `NaN` and the infinities are values; a number without fraction or
exponent is an integer of at most `Text.maxDigits` digits, and any other number the nearest double.
-/

namespace Schemata.Json

/-! ## Failures -/

/-- What is wrong with a text that is no JSON document. -/
inductive Fault where
  | value
  | name
  | colon
  /-- A comma or a closing bracket was due. -/
  | comma
  | unterminated
  /-- A control character inside a string. -/
  | control
  /-- A backslash before a character that it does not escape. -/
  | escape
  /-- A `u` escape without four hexadecimal digits. -/
  | unicodeEscape
  | extra
  /-- A byte order mark before the document. -/
  | byteOrderMark
  deriving DecidableEq, Repr

/-- The fault in words. -/
def Fault.message : Fault → String
  | .value => "Expecting value"
  | .name => "Expecting property name enclosed in double quotes"
  | .colon => "Expecting ':' delimiter"
  | .comma => "Expecting ',' delimiter"
  | .unterminated => "Unterminated string starting at"
  | .control => "Invalid control character at"
  | .escape => "Invalid \\escape"
  | .unicodeEscape => "Invalid \\uXXXX escape"
  | .extra => "Extra data"
  | .byteOrderMark => "Unexpected UTF-8 BOM (decode using utf-8-sig)"

/-- The two kinds of containers. -/
inductive Container where
  | array
  | object
  deriving DecidableEq, Repr

/-- How a container is named. -/
def Container.name : Container → String
  | .array => "array"
  | .object => "object"

/-- Why reading stopped before the end of a document. -/
inductive Stop where
  /-- A fault, with the rest of the text at its place. -/
  | fault (cause : Fault) (rest : List Char)
  | tooManyDigits (count : Nat)
  /-- A container begins for which there is no room. -/
  | tooDeep (container : Container)

/-- Why a text cannot be read. -/
inductive ReadError where
  /-- It is no JSON document: the fault and its place, counted in characters from zero. -/
  | malformed (cause : Fault) (position : Nat)
  /-- It holds an integer with too many digits. -/
  | tooManyDigits (count : Nat)
  /-- It holds a container for which there is no room. -/
  | tooDeep (container : Container)
  deriving DecidableEq, Repr

/-- The line and the column of a place, both counted from one. -/
def lineColumn (text : String) (position : Nat) : Nat × Nat :=
  let before := text.toList.take position
  (before.count '\n' + 1, (before.reverse.takeWhile (· ≠ '\n')).length + 1)

/-- What is said of an integer with too many digits. -/
def tooManyDigitsMessage (count : Nat) : String :=
  "Exceeds the limit (" ++ toString Text.maxDigits ++ " digits) for integer string conversion: value has "
    ++ toString count ++ " digits; use sys.set_int_max_str_digits() to increase the limit"

/-- What is said of a container for which there is no room. -/
def tooDeepMessage (container : Container) : String :=
  "maximum recursion depth exceeded while decoding a JSON " ++ container.name ++ " from a unicode string"

/-- The error with the line, the column and the offset of its place in the text. -/
def ReadError.located (text : String) : ReadError → String
  | .malformed cause position =>
    let (line, column) := lineColumn text position
    cause.message ++ ": line " ++ toString line ++ " column " ++ toString column ++ " (char " ++ toString position ++ ")"
  | .tooManyDigits count => tooManyDigitsMessage count
  | .tooDeep container => tooDeepMessage container

/-! ## Strings -/

/-- The character that a letter stands for behind a backslash. -/
def unescaped? : Char → Option Char
  | '"' => some '"'
  | '\\' => some '\\'
  | '/' => some '/'
  | 'b' => some '\x08'
  | 'f' => some '\x0c'
  | 'n' => some '\n'
  | 'r' => some '\r'
  | 't' => some '\t'
  | _ => none

/-- Whether a unit of UTF-16 is the first of a pair. -/
def isHighHalf (n : Nat) : Bool := 0xd800 ≤ n && n ≤ 0xdbff

/-- Whether a unit of UTF-16 is the second of a pair. -/
def isLowHalf (n : Nat) : Bool := 0xdc00 ≤ n && n ≤ 0xdfff

/-- The character of one unit; half of a pair is replaced. -/
def charOfUnit (n : Nat) : Char := if isHighHalf n || isLowHalf n then '\ufffd' else Char.ofNat n

/-- The character of a pair of units. -/
def charOfPair (high low : Nat) : Char := Char.ofNat (0x10000 + (high - 0xd800) * 0x400 + (low - 0xdc00))

/-- The number of four hexadecimal digits, if they are that, and the text behind them; there is none unless another
character follows. -/
def readUnit : List Char → Option (Option Nat × List Char)
  | a :: b :: c :: d :: e :: rest => some (hexNumber? [a, b, c, d], e :: rest)
  | _ => none

/-- Reads the digits of a `u` escape, and a second escape when the two are a pair. -/
def readEscapedUnit (cs : List Char) : Except Stop (Char × List Char) :=
  match readUnit cs with
  | some (some unit, rest) =>
    match isHighHalf unit, rest with
    | true, '\\' :: 'u' :: more =>
      match readUnit more with
      | some (some low, after) => .ok (if isLowHalf low then (charOfPair unit low, after) else (charOfUnit unit, rest))
      | some (none, _) => .error (.fault .unicodeEscape ('u' :: more))
      | none => .ok (charOfUnit unit, rest)
    | _, _ => .ok (charOfUnit unit, rest)
  | _ => .error (.fault .unicodeEscape ('u' :: cs))

theorem length_lt_of_readUnit {cs rest : List Char} {n : Option Nat} (h : readUnit cs = some (n, rest)) :
    rest.length < cs.length := by
  unfold readUnit at h
  split at h
  · cases h
    simp only [List.length_cons]
    omega
  · cases h

theorem length_lt_of_readEscapedUnit {cs rest : List Char} {c : Char} (h : readEscapedUnit cs = .ok (c, rest)) :
    rest.length < cs.length := by
  unfold readEscapedUnit at h
  split at h
  · rename_i unit after hu
    have h1 := length_lt_of_readUnit hu
    split at h
    · rename_i more _
      split at h
      · rename_i low last hl
        have h2 := length_lt_of_readUnit hl
        simp only [List.length_cons, Except.ok.injEq] at h1 h
        split at h <;> obtain ⟨-, rfl⟩ := Prod.mk.inj h <;> (try simp only [List.length_cons]) <;> omega
      · cases h
      · cases h; exact h1
    · cases h; exact h1
  · cases h

/-- Reads the rest of a string behind the characters already read, the latest first. `opening` is the text from the
opening quote on. -/
def readString (opening : List Char) (done : List Char) (cs : List Char) : Except Stop (String × List Char) :=
  match cs with
  | [] => .error (.fault .unterminated opening)
  | '"' :: rest => .ok (String.ofList done.reverse, rest)
  | '\\' :: [] => .error (.fault .unterminated opening)
  | '\\' :: 'u' :: rest =>
    match _h : readEscapedUnit rest with
    | .error stop => .error stop
    | .ok (c, rest) => readString opening (c :: done) rest
  | '\\' :: c :: rest =>
    match unescaped? c with
    | some c => readString opening (c :: done) rest
    | none => .error (.fault .escape ('\\' :: c :: rest))
  | c :: rest =>
    if c.toNat < 0x20 then .error (.fault .control (c :: rest)) else readString opening (c :: done) rest
termination_by cs.length
decreasing_by
  · have := length_lt_of_readEscapedUnit _h
    simp only [List.length_cons]
    omega
  · simp only [List.length_cons]
    omega
  · simp only [List.length_cons]
    omega

/-! ## Numbers and literals -/

/-- Whether the character is one of `0` to `9`. -/
def isDigit (c : Char) : Bool := '0' ≤ c && c ≤ '9'

/-- Splits the digits off the front. -/
def spanDigits (cs : List Char) : List Char × List Char := (cs.takeWhile isDigit, cs.dropWhile isDigit)

/-- The digits of a whole part: a zero, or digits that start with another one. -/
def spanWhole : List Char → List Char × List Char
  | '0' :: rest => (['0'], rest)
  | cs => spanDigits cs

/-- The digits behind a point, if there are any. -/
def spanFraction : List Char → List Char × List Char
  | '.' :: rest => if (spanDigits rest).1 = [] then ([], '.' :: rest) else spanDigits rest
  | cs => ([], cs)

/-- The exponent behind an `e`, if digits follow. -/
def spanExponent (cs : List Char) : Option Int × List Char :=
  match cs with
  | e :: rest =>
    if e = 'e' ∨ e = 'E' then
      let (negative, rest) := match rest with
        | '-' :: r => (true, r)
        | '+' :: r => (false, r)
        | r => (false, r)
      let (digits, after) := spanDigits rest
      if digits = [] then (none, cs)
      else
        let n : Int := Text.digitsValue digits
        (some (if negative then -n else n), after)
    else (none, cs)
  | [] => (none, [])

/-- Reads a number without its sign. -/
def readUnsigned (negative : Bool) (cs : List Char) : Option (Except Stop (Value × List Char)) :=
  let (whole, rest) := spanWhole cs
  if whole = [] then none else
  let (fraction, rest) := spanFraction rest
  let (exponent, rest) := spanExponent rest
  if fraction = [] ∧ exponent = none then
    if Text.maxDigits < whole.length then some (.error (.tooManyDigits whole.length))
    else
      let n : Int := Text.digitsValue whole
      some (.ok (.int (if negative then -n else n), rest))
  else
    let digits := whole ++ fraction
    some (.ok (.double (Double.ofDecimal negative (Text.digitsValue digits) digits.length
      (exponent.getD 0 - fraction.length)), rest))

/-- Reads a number. -/
def readNumber : List Char → Option (Except Stop (Value × List Char))
  | '-' :: rest => readUnsigned true rest
  | cs => readUnsigned false cs

/-- The words that are values. -/
def literals : List (String × Value) :=
  [("null", .null), ("true", .bool true), ("false", .bool false), ("NaN", .double .nan),
    ("Infinity", .double (.infinite false)), ("-Infinity", .double (.infinite true))]

/-- The literal that a text starts with, and what follows it. -/
def readLiteral (cs : List Char) : Option (Value × List Char) :=
  (literals.find? fun l => l.1.toList.isPrefixOf cs).map fun l => (l.2, cs.drop l.1.length)

/-- Reads a value that is no container. -/
def readScalar (cs : List Char) : Except Stop (Value × List Char) :=
  match cs with
  | '"' :: rest => (readString cs [] rest).map fun r => (.string r.1, r.2)
  | _ =>
    match readLiteral cs with
    | some r => .ok r
    | none => (readNumber cs).getD (.error (.fault .value cs))

/-! ## Documents -/

/-- Whether the character is a blank between tokens. -/
def isBlank (c : Char) : Bool := c == ' ' || c == '\t' || c == '\n' || c == '\r'

/-- The text without the blanks at its front. -/
def skipBlanks (cs : List Char) : List Char := cs.dropWhile isBlank

/-- Reads a name and the colon behind it. -/
def readName (cs : List Char) : Except Stop (String × List Char) :=
  match cs with
  | '"' :: rest =>
    match readString cs [] rest with
    | .error stop => .error stop
    | .ok (name, rest) =>
      match skipBlanks rest with
      | ':' :: rest => .ok (name, rest)
      | rest => .error (.fault .colon rest)
  | _ => .error (.fault .name cs)

/-- A container that is not yet closed. -/
inductive Frame where
  /-- An array, with its elements so far, the latest first. -/
  | elements (before : List Value)
  /-- An object, with its fields so far and the name whose value is due. -/
  | fields (before : Fields) (name : String)

/-- What the reader does next. -/
inductive Turn where
  | expect
  /-- It puts a complete value into its container. -/
  | place (v : Value)

theorem length_skipBlanks_le (cs : List Char) : (skipBlanks cs).length ≤ cs.length :=
  (List.dropWhile_sublist _).length_le

theorem length_lt_of_skipBlanks {c : Char} {cs rest : List Char} (h : skipBlanks cs = c :: rest) :
    rest.length < cs.length := by
  have := length_skipBlanks_le cs
  rw [h, List.length_cons] at this
  omega

theorem length_spanDigits_le (cs : List Char) : (spanDigits cs).2.length ≤ cs.length :=
  (List.dropWhile_sublist _).length_le

theorem length_lt_of_readString {opening done cs rest : List Char} {s : String}
    (h : readString opening done cs = .ok (s, rest)) : rest.length < cs.length := by
  fun_induction readString opening done cs with
  | case1 => cases h
  | case2 => cases h; simp
  | case3 => cases h
  | case4 => cases h
  | case5 done tail c after hu ih =>
    have := ih h
    have := length_lt_of_readEscapedUnit hu
    simp only [List.length_cons]
    omega
  | case6 done c tail _ e _ ih =>
    have := ih h
    simp only [List.length_cons]
    omega
  | case7 => cases h
  | case8 => cases h
  | case9 =>
    rename_i ih
    have := ih h
    simp only [List.length_cons]
    omega

theorem length_lt_of_readName {cs rest : List Char} {s : String} (h : readName cs = .ok (s, rest)) :
    rest.length < cs.length := by
  unfold readName at h
  split at h
  · rename_i tail
    split at h
    · cases h
    · rename_i name after hs
      have h1 := length_lt_of_readString hs
      have h2 := length_skipBlanks_le after
      split at h
      · rename_i r hr
        cases h
        rw [hr] at h2
        simp only [List.length_cons] at *
        omega
      · cases h
  · cases h

theorem length_spanWhole (cs : List Char) : (spanWhole cs).1.length + (spanWhole cs).2.length = cs.length := by
  unfold spanWhole
  split
  · simp [Nat.add_comm]
  · rw [← List.length_append]
    exact congrArg List.length (List.takeWhile_append_dropWhile)

theorem length_spanFraction_le (cs : List Char) : (spanFraction cs).2.length ≤ cs.length := by
  unfold spanFraction
  split
  · split
    · simp
    · rename_i rest _
      have := length_spanDigits_le rest
      simp only [List.length_cons]
      omega
  · simp

theorem length_spanExponent_le (cs : List Char) : (spanExponent cs).2.length ≤ cs.length := by
  unfold spanExponent
  split
  · rename_i e rest
    split
    · split
      rename_i negative after heq
      have ha : after.length ≤ rest.length := by
        split at heq <;> cases heq <;> simp
      dsimp only
      split
      · simp
      · have := length_spanDigits_le after
        simp only [List.length_cons]
        omega
    · simp
  · simp

theorem length_lt_of_readUnsigned {negative : Bool} {cs rest : List Char} {v : Value}
    (h : readUnsigned negative cs = some (.ok (v, rest))) : rest.length < cs.length := by
  unfold readUnsigned at h
  have hw := length_spanWhole cs
  have hf := length_spanFraction_le (spanWhole cs).2
  have he := length_spanExponent_le (spanFraction (spanWhole cs).2).2
  simp only at h
  split at h
  · cases h
  · rename_i hne
    have := List.length_pos_iff.2 hne
    split at h
    · split at h
      · cases h
      · cases h; omega
    · cases h; omega

theorem length_lt_of_readNumber {cs rest : List Char} {v : Value}
    (h : readNumber cs = some (.ok (v, rest))) : rest.length < cs.length := by
  unfold readNumber at h
  split at h
  · have := length_lt_of_readUnsigned h
    simp only [List.length_cons]
    omega
  · exact length_lt_of_readUnsigned h

theorem length_lt_of_readLiteral {cs rest : List Char} {v : Value} (h : readLiteral cs = some (v, rest)) :
    rest.length < cs.length := by
  unfold readLiteral at h
  rw [Option.map_eq_some_iff] at h
  obtain ⟨l, hl, heq⟩ := h
  cases heq
  have hp := List.find?_some hl
  have hm := List.mem_of_find?_eq_some hl
  have hlen := (List.isPrefixOf_iff_prefix.1 hp).length_le
  have hpos : 0 < l.1.length := by
    simp only [literals, List.mem_cons, List.not_mem_nil, or_false] at hm
    rcases hm with rfl | rfl | rfl | rfl | rfl | rfl <;> decide
  rw [List.length_drop, String.length_toList] at *
  omega

theorem length_lt_of_readScalar {cs rest : List Char} {v : Value} (h : readScalar cs = .ok (v, rest)) :
    rest.length < cs.length := by
  unfold readScalar at h
  split at h
  · rename_i tail
    cases hs : readString ('"' :: tail) [] tail with
    | error e => rw [hs] at h; cases h
    | ok r =>
      rw [hs] at h
      cases h
      have := length_lt_of_readString hs
      simp only [List.length_cons]
      omega
  · split at h
    · rename_i r hr
      cases h
      exact length_lt_of_readLiteral hr
    · cases hn : readNumber cs with
      | none => rw [hn] at h; cases h
      | some r => rw [hn] at h; subst h; exact length_lt_of_readNumber hn

/-- Reads on with the open containers, the innermost first. -/
def read (room : Room) (stack : List Frame) (turn : Turn) (cs : List Char) : Except Stop (Value × List Char) :=
  match turn with
  | .expect =>
    match _hb : skipBlanks cs with
    | '[' :: tail =>
      if room.holds (stack.length + 1) then
        match _ht : skipBlanks tail with
        | ']' :: rest => read room stack (.place (.array [])) rest
        | rest => read room (.elements [] :: stack) .expect rest
      else .error (.tooDeep .array)
    | '\x7b' :: tail =>
      if room.holds (stack.length + 1) then
        match _ht : skipBlanks tail with
        | '\x7d' :: rest => read room stack (.place (.object [])) rest
        | named =>
          match _hn : readName named with
          | .error stop => .error stop
          | .ok (name, rest) => read room (.fields [] name :: stack) .expect rest
      else .error (.tooDeep .object)
    | text =>
      match _hs : readScalar text with
      | .error stop => .error stop
      | .ok (v, rest) => read room stack (.place v) rest
  | .place v =>
    match stack with
    | [] => .ok (v, cs)
    | .elements before :: stack =>
      match _hb : skipBlanks cs with
      | ']' :: rest => read room stack (.place (.array (v :: before).reverse)) rest
      | ',' :: rest => read room (.elements (v :: before) :: stack) .expect rest
      | rest => .error (.fault .comma rest)
    | .fields before name :: stack =>
      match _hb : skipBlanks cs with
      | '\x7d' :: rest => read room stack (.place (.object (setField name v before))) rest
      | ',' :: tail =>
        match _hn : readName (skipBlanks tail) with
        | .error stop => .error stop
        | .ok (next, rest) => read room (.fields (setField name v before) next :: stack) .expect rest
      | rest => .error (.fault .comma rest)
termination_by cs.length
decreasing_by
  · exact Nat.lt_trans (length_lt_of_skipBlanks _ht) (length_lt_of_skipBlanks _hb)
  · exact Nat.lt_of_le_of_lt (_ht ▸ length_skipBlanks_le _) (length_lt_of_skipBlanks _hb)
  · exact Nat.lt_trans (length_lt_of_skipBlanks _ht) (length_lt_of_skipBlanks _hb)
  · exact Nat.lt_trans (length_lt_of_readName _hn)
      (Nat.lt_of_le_of_lt (_ht ▸ length_skipBlanks_le _) (length_lt_of_skipBlanks _hb))
  · exact Nat.lt_of_lt_of_le (length_lt_of_readScalar _hs) (_hb ▸ length_skipBlanks_le _)
  · exact length_lt_of_skipBlanks _hb
  · exact length_lt_of_skipBlanks _hb
  · exact length_lt_of_skipBlanks _hb
  · exact Nat.lt_trans (length_lt_of_readName _hn)
      (Nat.lt_of_le_of_lt (length_skipBlanks_le _) (length_lt_of_skipBlanks _hb))

/-- Reads one document with blanks around it. -/
def parse (text : String) (room : Room := .unlimited) : Except ReadError Value :=
  let cs := text.toList
  let stopAt (cause : Fault) (rest : List Char) : ReadError := .malformed cause (cs.length - rest.length)
  if cs.head? = some '\ufeff' then .error (.malformed .byteOrderMark 0) else
  match read room [] .expect cs with
  | .error (.fault cause rest) => .error (stopAt cause rest)
  | .error (.tooManyDigits count) => .error (.tooManyDigits count)
  | .error (.tooDeep container) => .error (.tooDeep container)
  | .ok (v, rest) =>
    match skipBlanks rest with
    | [] => .ok v
    | rest => .error (stopAt .extra rest)

end Schemata.Json

import Schemata.Json.Reader
import Schemata.Number.Double
import Schemata.Text.Blank
import Schemata.Text.Digit
import Schemata.Text.Integer

/-!
# Words of the path language

`tokens` cuts a path text into its words: marks, relations, names, quoted names, numbers and operators in back quotes.
Spaces, tabs and line feeds between words are skipped. Where the text goes on with no word, or with an integer that is
too long, the words end with one that says so, and that no path has.
-/

namespace Schemata.Query

/-- How two values are compared. -/
inductive Relation where
  | equal
  | unequal
  | below
  | atMost
  | above
  | atLeast
  deriving DecidableEq, Repr

/-- The operators in back quotes. -/
inductive Operator where
  | this
  | parent
  | length
  | keys
  | sorted
  deriving DecidableEq, Repr

/-- A word of the path language. -/
inductive Token where
  /-- `$` -/
  | root
  /-- `@` -/
  | here
  /-- `.` -/
  | dot
  /-- `..` -/
  | descend
  /-- `[` -/
  | openBracket
  /-- `]` -/
  | closeBracket
  /-- `(` -/
  | openParen
  /-- `)` -/
  | closeParen
  /-- `,` -/
  | comma
  /-- `:` -/
  | colon
  /-- `*` -/
  | star
  /-- `?` -/
  | question
  /-- `!` -/
  | bang
  /-- `&&` -/
  | both
  /-- `&` -/
  | ampersand
  /-- `||` -/
  | either
  | relation (r : Relation)
  /-- The reserved name that keeps nodes with a match. -/
  | having
  /-- The reserved name that keeps nodes without a match. -/
  | lacking
  | word (name : String)
  | quoted (name : String)
  | integer (n : Int)
  | decimal (d : Double)
  | operator (o : Operator)
  /-- The start of a sort key: `/` ascending, a backslash descending, a comma and blanks before it swallowed. -/
  | sortKey (descending : Bool)
  /-- A whole number of too many digits. -/
  | tooLong (digits : Nat)
  | unreadable
  deriving DecidableEq

/-! ## Single words -/

/-- Whether the character is a blank between words. -/
def isBlank (c : Char) : Bool := c == ' ' || c == '\t' || c == '\n'

/-- Whether a name can start with the character. -/
def isNameStart (c : Char) : Bool := ('a' ≤ c && c ≤ 'z') || ('A' ≤ c && c ≤ 'Z') || c == '_'

/-- Whether a name can go on with the character. -/
def isNamePart (c : Char) : Bool := isNameStart c || Json.isDigit c || c == '@' || c == '-'

/-- The token of a name. -/
def wordToken (name : String) : Token :=
  if name = "where" then .having else if name = "wherenot" then .lacking else .word name

/-- The operator of a name in back quotes. -/
def operator? (name : String) : Option Operator :=
  if name = "this" then some .this
  else if name = "parent" then some .parent
  else if name = "len" then some .length
  else if name = "keys" then some .keys
  else if name = "sorted" then some .sorted
  else none

/-- Reads up to the closing mark behind the characters already read, the latest first. A backslash takes the next
character as it is, unless that is a line feed. -/
def readQuoted (mark : Char) (done : List Char) : List Char → Option (String × List Char)
  | [] => none
  | '\\' :: c :: rest => if c = '\n' then none else readQuoted mark (c :: done) rest
  | c :: rest =>
    if c = mark then some (String.ofList done.reverse, rest)
    else if c = '\\' then none
    else readQuoted mark (c :: done) rest

/-- The value of digits of any script. -/
def digitsValue (cs : List Char) : Nat := cs.foldl (fun n c => n * 10 + (Text.digitValue? c).getD 0) 0

/-- Whether the character is a digit of any script. -/
def isDigit (c : Char) : Bool := (Text.digitValue? c).isSome

/-- Reads a number without its sign: whole, or with a fraction if digits follow a point. -/
def readNumber (negative : Bool) (cs : List Char) : Option (Token × List Char) :=
  let whole := cs.takeWhile isDigit
  let rest := cs.dropWhile isDigit
  if whole = [] then none else
  let n : Int := digitsValue whole
  let integer :=
    if Text.maxDigits < whole.length then some (Token.tooLong whole.length, rest)
    else some (Token.integer (if negative then -n else n), rest)
  match rest with
  | '.' :: tail =>
    let fraction := tail.takeWhile isDigit
    if fraction = [] then integer
    else
      let digits := whole ++ fraction
      some (.decimal (Double.ofDecimal negative (digitsValue digits) digits.length (-fraction.length)),
        tail.dropWhile isDigit)
  | _ => integer

/-- Reads a name. -/
def readWord (cs : List Char) : Token × List Char :=
  (wordToken (String.ofList (cs.takeWhile isNamePart)), cs.dropWhile isNamePart)

/-- The start of a sort key that a text begins with, a comma apart: a mark behind blanks of any kind. -/
def sortKey? (cs : List Char) : Option (Token × List Char) :=
  match cs.dropWhile Text.isBlank with
  | '/' :: rest => some (.sortKey false, rest)
  | '\\' :: rest => some (.sortKey true, rest)
  | _ => none

/-- Reads the first word of a text that starts with neither blank nor end, nor with a sort key without a comma. -/
def readWordToken : List Char → Option (Token × List Char)
  | '$' :: rest => some (.root, rest)
  | '@' :: c :: rest =>
    if isNameStart c then
      some (wordToken (String.ofList ('@' :: (c :: rest).takeWhile isNamePart)), (c :: rest).dropWhile isNamePart)
    else some (.here, c :: rest)
  | '@' :: rest => some (.here, rest)
  | '.' :: '.' :: rest => some (.descend, rest)
  | '.' :: rest => some (.dot, rest)
  | '[' :: rest => some (.openBracket, rest)
  | ']' :: rest => some (.closeBracket, rest)
  | '(' :: rest => some (.openParen, rest)
  | ')' :: rest => some (.closeParen, rest)
  | ',' :: rest => some ((sortKey? rest).getD (.comma, rest))
  | ':' :: rest => some (.colon, rest)
  | '*' :: rest => some (.star, rest)
  | '?' :: rest => some (.question, rest)
  | '!' :: '=' :: rest => some (.relation .unequal, rest)
  | '!' :: rest => some (.bang, rest)
  | '&' :: '&' :: rest => some (.both, rest)
  | '&' :: rest => some (.ampersand, rest)
  | '|' :: '|' :: rest => some (.either, rest)
  | '<' :: '=' :: rest => some (.relation .atMost, rest)
  | '<' :: rest => some (.relation .below, rest)
  | '>' :: '=' :: rest => some (.relation .atLeast, rest)
  | '>' :: rest => some (.relation .above, rest)
  | '=' :: '=' :: rest => some (.relation .equal, rest)
  | '=' :: rest => some (.relation .equal, rest)
  | '\'' :: rest => (readQuoted '\'' [] rest).map fun r => (.quoted r.1, r.2)
  | '"' :: rest => (readQuoted '"' [] rest).map fun r => (.quoted r.1, r.2)
  | '\x60' :: rest => (readQuoted '\x60' [] rest).bind fun r => (operator? r.1).map fun o => (.operator o, r.2)
  | '-' :: rest => readNumber true rest
  | c :: rest =>
    if isNameStart c then some (readWord (c :: rest))
    else if isDigit c then readNumber false (c :: rest)
    else none
  | [] => none

/-- Reads the first word of a text that starts with neither blank nor end. -/
def readToken (cs : List Char) : Option (Token × List Char) :=
  match sortKey? cs with
  | some r => some r
  | none => readWordToken cs

/-! ## All words -/

theorem length_lt_of_readQuoted {mark : Char} {done cs rest : List Char} {s : String}
    (h : readQuoted mark done cs = some (s, rest)) : rest.length < cs.length := by
  fun_induction readQuoted mark done cs with
  | case1 => cases h
  | case2 => cases h
  | case3 done c tail _ ih => have := ih h; simp only [List.length_cons]; omega
  | case4 => cases h; simp
  | case5 => cases h
  | case6 =>
    rename_i ih
    have := ih h
    simp only [List.length_cons]
    omega

theorem length_dropWhile_le (p : Char → Bool) (cs : List Char) : (cs.dropWhile p).length ≤ cs.length :=
  (List.dropWhile_sublist p).length_le

theorem length_lt_of_readNumber {negative : Bool} {cs rest : List Char} {t : Token}
    (h : readNumber negative cs = some (t, rest)) : rest.length < cs.length := by
  unfold readNumber at h
  have hw : (cs.takeWhile isDigit).length + (cs.dropWhile isDigit).length = cs.length := by
    rw [← List.length_append, List.takeWhile_append_dropWhile]
  simp only at h
  split at h
  · cases h
  · rename_i hne
    have := List.length_pos_iff.2 hne
    split at h
    · rename_i tail heq
      have := length_dropWhile_le isDigit tail
      rw [heq, List.length_cons] at hw
      split at h
      · split at h <;> (cases h; rw [heq, List.length_cons]; omega)
      · cases h
        omega
    · split at h <;> (cases h; omega)

theorem length_lt_of_readWord {c : Char} {tail : List Char} (hc : isNameStart c = true) :
    (readWord (c :: tail)).2.length < (c :: tail).length := by
  have hp : isNamePart c = true := by simp [isNamePart, hc]
  have := length_dropWhile_le isNamePart tail
  simp only [readWord, List.dropWhile_cons, hp, ↓reduceIte, List.length_cons]
  omega

theorem length_lt_of_sortKey? {cs rest : List Char} {t : Token} (h : sortKey? cs = some (t, rest)) :
    rest.length < cs.length := by
  unfold sortKey? at h
  have := length_dropWhile_le Text.isBlank cs
  split at h <;> rename_i heq <;> cases h <;> rw [heq, List.length_cons] at this <;> omega

theorem length_lt_of_readWordToken {cs rest : List Char} {t : Token} (h : readWordToken cs = some (t, rest)) :
    rest.length < cs.length := by
  unfold readWordToken at h
  split at h
  all_goals try (cases h; simp only [List.length_cons]; omega)
  · rename_i c tail
    have hd := length_dropWhile_le isNamePart (c :: tail)
    split at h <;> cases h <;> simp only [List.length_cons] at * <;> omega
  · rename_i tail
    cases hs : sortKey? tail with
    | none =>
      rw [hs] at h
      cases h
      simp
    | some r =>
      rw [hs] at h
      cases h
      have := length_lt_of_sortKey? hs
      simp only [List.length_cons]
      omega
  · obtain ⟨r, hr, heq⟩ := Option.map_eq_some_iff.1 h
    cases heq
    have := length_lt_of_readQuoted hr
    simp only [List.length_cons]
    omega
  · obtain ⟨r, hr, heq⟩ := Option.map_eq_some_iff.1 h
    cases heq
    have := length_lt_of_readQuoted hr
    simp only [List.length_cons]
    omega
  · obtain ⟨r, hr, heq⟩ := Option.bind_eq_some_iff.1 h
    obtain ⟨o, _, ho⟩ := Option.map_eq_some_iff.1 heq
    cases ho
    have := length_lt_of_readQuoted hr
    simp only [List.length_cons]
    omega
  · have := length_lt_of_readNumber h
    simp only [List.length_cons]
    omega
  · rename_i c tail _ _ _ _ _ _ _ _ _ _ _ _ _ _ _ _ _ _ _ _ _ _ _ _ _ _ _
    split at h
    · rename_i hc
      cases h
      exact length_lt_of_readWord hc
    · split at h
      · exact length_lt_of_readNumber h
      · cases h
  · cases h

theorem length_lt_of_readToken {cs rest : List Char} {t : Token} (h : readToken cs = some (t, rest)) :
    rest.length < cs.length := by
  unfold readToken at h
  split at h
  · rename_i hs
    cases h
    exact length_lt_of_sortKey? hs
  · exact length_lt_of_readWordToken h

/-- The words of a path text, up to the first that no path has. -/
def tokens (cs : List Char) : List Token :=
  match _hb : cs.dropWhile isBlank with
  | [] => []
  | c :: tail =>
    match _ht : readToken (c :: tail) with
    | none => [.unreadable]
    | some (.tooLong digits, _) => [.tooLong digits]
    | some (t, rest) => t :: tokens rest
termination_by cs.length
decreasing_by
  have h1 := length_dropWhile_le isBlank cs
  have h2 := length_lt_of_readToken _ht
  rw [_hb] at h1
  omega

end Schemata.Query

import Schemata.Query.Path

/-!
# The grammar of paths

Paths are joined by links, from the loosest to the tightest: `..`, a point, `where` and `wherenot`; links that are as
tight join to the left. A bracket belongs to everything before it. A reader gives what it has read and the rest, or
the word that it could not go on with: the first one behind which no path goes on. The readers take fuel, of which
`Path.ofText` gives more than the words of a text can use.
-/

namespace Schemata.Query

/-- What a reader gives, or the word that fits no path; it is missing if the words end too early. -/
abbrev Reading := Except (Option Token)

/-- The reading that stops before the given words. -/
def stopAt {α : Type} (tokens : List Token) : Reading α := .error tokens.head?

/-- Reads a word that has to come next. -/
def expect (token : Token) : List Token → Reading (List Token)
  | t :: rest => if t = token then .ok rest else .error (some t)
  | [] => .error none

/-! ## Parts without recursion -/

/-- Reads further names behind commas, the latest first. -/
def readNames (done : List String) : List Token → Reading (List String × List Token)
  | .comma :: .word name :: rest => readNames (name :: done) rest
  | .comma :: .quoted name :: rest => readNames (name :: done) rest
  | .comma :: rest => stopAt rest
  | rest => .ok (done.reverse, rest)

/-- Reads further places behind commas, the latest first. -/
def readPlaces (done : List Int) : List Token → Reading (List Int × List Token)
  | .comma :: .integer n :: rest => readPlaces (n :: done) rest
  | .comma :: rest => stopAt rest
  | rest => .ok (done.reverse, rest)

/-- Reads a number if one comes next. -/
def readBound : List Token → Option Int × List Token
  | .integer n :: rest => (some n, rest)
  | rest => (none, rest)

/-- Reads the bounds of a slice behind its first colon. -/
def readSlice (start : Option Int) (rest : List Token) : Path × List Token :=
  let (stop, rest) := readBound rest
  match rest with
  | .colon :: rest =>
    let (step, rest) := readBound rest
    (.slice start stop step, rest)
  | rest => (.slice start stop none, rest)

/-- Reads names, places or a slice between brackets, with the closing one. -/
def readSelector (tokens : List Token) : Reading (Path × List Token) := do
  let (path, rest) ← match tokens with
    | .star :: rest => .ok (Path.all, rest)
    | .word name :: rest => do
      let (names, rest) ← readNames [name] rest
      .ok (.fields names, rest)
    | .quoted name :: rest => do
      let (names, rest) ← readNames [name] rest
      .ok (.fields names, rest)
    | .integer n :: .colon :: rest => .ok (readSlice (some n) rest)
    | .integer n :: rest => do
      let (places, rest) ← readPlaces [n] rest
      .ok (.indices places, rest)
    | .colon :: rest => .ok (readSlice none rest)
    | rest => stopAt rest
  let rest ← expect .closeBracket rest
  return (path, rest)

/-- The path of an operator in back quotes. -/
def Operator.path : Operator → Path
  | .this => .here
  | .parent => .parent
  | .length => .length
  | .keys => .keys
  | .sorted => .sorted .done

/-- The names that stand for values. -/
def literal? : String → Option Json.Value
  | "null" => some .null
  | "true" => some (.bool true)
  | "false" => some (.bool false)
  | _ => none

/-- Reads the single steps of an operand: names behind a point or in brackets, and places in brackets. A name that
stands for a value is written in quotes there. -/
def readSteps (path : Path) : List Token → Reading (Path × List Token)
  | .dot :: .word name :: rest => readSteps (.child path (.fields [name])) rest
  | .dot :: .quoted name :: rest => readSteps (.child path (.fields [name])) rest
  | .dot :: rest => stopAt rest
  | .openBracket :: .word name :: .closeBracket :: rest =>
    if (literal? name).isSome then .error (some (.word name)) else readSteps (.child path (.fields [name])) rest
  | .openBracket :: .quoted name :: .closeBracket :: rest => readSteps (.child path (.fields [name])) rest
  | .openBracket :: .integer n :: .closeBracket :: rest => readSteps (.child path (.indices [n])) rest
  | .openBracket :: .word name :: rest => if (literal? name).isSome then .error (some (.word name)) else stopAt rest
  | .openBracket :: .quoted _ :: rest => stopAt rest
  | .openBracket :: .integer _ :: rest => stopAt rest
  | .openBracket :: rest => stopAt rest
  | rest => .ok (path, rest)

/-- Reads what stands behind a relation, and gives the comparison with it. -/
def readOperand (path : Path) (relation : Relation) : List Token → Reading (Condition × List Token)
  | .quoted text :: rest => .ok (.comparesTo path relation (.string text), rest)
  | .word text :: rest => .ok (.comparesTo path relation ((literal? text).getD (.string text)), rest)
  | .integer n :: rest => .ok (.comparesTo path relation (.int n), rest)
  | .decimal d :: rest => .ok (.comparesTo path relation (.double d), rest)
  | .root :: rest => do
    let (other, rest) ← readSteps .root rest
    .ok (.compares path relation other, rest)
  | .here :: rest => do
    let (other, rest) ← readSteps .here rest
    .ok (.compares path relation other, rest)
  | rest => stopAt rest

/-! ## Links -/

/-- What joins two paths. -/
inductive Link where
  /-- `..` -/
  | descend
  | child
  /-- `where` -/
  | having
  /-- `wherenot` -/
  | lacking
  deriving DecidableEq, Repr

namespace Link

/-- The link of a word. -/
def ofToken? : Token → Option Link
  | .descend => some .descend
  | .dot => some .child
  | .having => some .having
  | .lacking => some .lacking
  | _ => none

/-- How tightly a link joins. -/
def tightness : Link → Nat
  | descend => 1
  | child => 2
  | having => 3
  | lacking => 4

/-- Two paths joined. -/
def join : Link → Path → Path → Path
  | descend => .descend
  | child => .child
  | having => .having
  | lacking => .lacking

end Link

/-- A filter's condition, or a path that stands for the condition that it has a match. -/
abbrev Test := Path ⊕ Condition

/-- The condition that a test stands for. -/
def Test.condition : Test → Condition
  | .inl path => .present path
  | .inr condition => condition

/-! ## Paths and conditions -/

/-- Reads the relation behind a path, if there is one, and what it compares with. -/
def readComparison (path : Path) : List Token → Reading (Test × List Token)
  | .relation r :: rest => do
    let (condition, rest) ← readOperand path r rest
    .ok (.inr condition, rest)
  | rest => .ok (.inl path, rest)

mutual

/-- Reads a path. -/
def readPath : Nat → List Token → Reading (Path × List Token)
  | 0, _ => .error none
  | fuel + 1, tokens => do
    let (path, rest) ← readSingle fuel tokens
    readOn fuel path rest

/-- Reads what goes on with a path: brackets, which belong to all of it, and links. Behind `..` a filter may stand by
itself. -/
def readOn : Nat → Path → List Token → Reading (Path × List Token)
  | 0, _, _ => .error none
  | fuel + 1, path, .openBracket :: rest => do
    let (next, rest) ← readBracket fuel rest
    readOn fuel (.child path next) rest
  | fuel + 1, path, .descend :: .openBracket :: .question :: rest => do
    let (filter, rest) ← readFilter fuel rest
    readOn fuel (.descend path filter) rest
  | fuel + 1, path, token :: rest =>
    match Link.ofToken? token with
    | some link => do
      let (next, rest) ← readSingle fuel rest
      let (next, rest) ← readTighter fuel link next rest
      readOn fuel (link.join path next) rest
    | none => .ok (path, token :: rest)
  | _ + 1, path, [] => .ok (path, [])

/-- Reads links that are tighter than the one before the path. -/
def readTighter : Nat → Link → Path → List Token → Reading (Path × List Token)
  | 0, _, _, _ => .error none
  | fuel + 1, before, path, token :: rest =>
    match Link.ofToken? token with
    | some link =>
      if before.tightness < link.tightness then do
        let (next, rest) ← readSingle fuel rest
        let (next, rest) ← readTighter fuel link next rest
        readTighter fuel before (link.join path next) rest
      else .ok (path, token :: rest)
    | none => .ok (path, token :: rest)
  | _ + 1, _, path, [] => .ok (path, [])

/-- Reads what stands in a bracket behind a path: a filter, sort keys or a selector. -/
def readBracket : Nat → List Token → Reading (Path × List Token)
  | 0, _ => .error none
  | fuel + 1, .question :: rest => readFilter fuel rest
  | fuel + 1, .sortKey descending :: rest => do
    let (keys, rest) ← readSortKeys fuel (.sortKey descending :: rest)
    .ok (.sorted keys, rest)
  | _ + 1, rest => readSelector rest

/-- Reads a single way. -/
def readSingle : Nat → List Token → Reading (Path × List Token)
  | 0, _ => .error none
  | _ + 1, .root :: rest => .ok (.root, rest)
  | _ + 1, .here :: rest => .ok (.here, rest)
  | _ + 1, .star :: rest => .ok (.all, rest)
  | _ + 1, .integer n :: rest => .ok (.fields [String.ofList (Text.decimalInt n)], rest)
  | _ + 1, .word name :: rest => do
    let (names, rest) ← readNames [name] rest
    .ok (.fields names, rest)
  | _ + 1, .quoted name :: rest => do
    let (names, rest) ← readNames [name] rest
    .ok (.fields names, rest)
  | _ + 1, .operator o :: rest => .ok (o.path, rest)
  | _ + 1, .openBracket :: rest => readSelector rest
  | fuel + 1, .openParen :: rest => do
    let (path, rest) ← readPath fuel rest
    let rest ← expect .closeParen rest
    .ok (path, rest)
  | _ + 1, rest => stopAt rest

/-- Reads the keys of a sort with the closing bracket. -/
def readSortKeys : Nat → List Token → Reading (SortKeys × List Token)
  | 0, _ => .error none
  | fuel + 1, .sortKey descending :: rest => do
    let (path, rest) ← readPath fuel rest
    let (keys, rest) ← readSortKeys fuel rest
    .ok (.key path descending keys, rest)
  | _ + 1, .closeBracket :: rest => .ok (.done, rest)
  | _ + 1, rest => stopAt rest

/-- Reads a filter's condition with the closing bracket. -/
def readFilter : Nat → List Token → Reading (Path × List Token)
  | 0, _ => .error none
  | fuel + 1, tokens => do
    let (test, rest) ← readAlternatives fuel tokens
    let rest ← expect .closeBracket rest
    .ok (.filter test.condition, rest)

/-- Reads conjunctions with `||` between them. -/
def readAlternatives : Nat → List Token → Reading (Test × List Token)
  | 0, _ => .error none
  | fuel + 1, tokens => do
    let (test, rest) ← readConjunction fuel tokens
    readFurtherAlternatives fuel test rest

/-- Reads further conjunctions behind `||`. -/
def readFurtherAlternatives : Nat → Test → List Token → Reading (Test × List Token)
  | 0, _, _ => .error none
  | fuel + 1, test, .either :: rest => do
    let (next, rest) ← readConjunction fuel rest
    readFurtherAlternatives fuel (.inr (.either test.condition next.condition)) rest
  | _ + 1, test, rest => .ok (test, rest)

/-- Reads tests with `&&` or `&` between them. -/
def readConjunction : Nat → List Token → Reading (Test × List Token)
  | 0, _ => .error none
  | fuel + 1, tokens => do
    let (test, rest) ← readTest fuel tokens
    readFurtherTests fuel test rest

/-- Reads further tests behind `&&` or `&`. -/
def readFurtherTests : Nat → Test → List Token → Reading (Test × List Token)
  | 0, _, _ => .error none
  | fuel + 1, test, .both :: rest => do
    let (next, rest) ← readTest fuel rest
    readFurtherTests fuel (.inr (.both test.condition next.condition)) rest
  | fuel + 1, test, .ampersand :: rest => do
    let (next, rest) ← readTest fuel rest
    readFurtherTests fuel (.inr (.both test.condition next.condition)) rest
  | _ + 1, test, rest => .ok (test, rest)

/-- Reads a path that is all of a test, or its left side. Behind such a path a single `&` would join another path to it;
no path is joined so, and the reading ends behind the other path at the latest. -/
def readTested : Nat → List Token → Reading (Path × List Token)
  | 0, _ => .error none
  | fuel + 1, tokens => do
    let (path, rest) ← readPath fuel tokens
    endTested fuel path rest

/-- Ends a path of a test before the given words, if they do not join another path to it. -/
def endTested : Nat → Path → List Token → Reading (Path × List Token)
  | 0, _, _ => .error none
  | fuel + 1, _, .ampersand :: rest => do
    let (_, rest) ← readPath fuel rest
    stopAt rest
  | _ + 1, path, rest => .ok (path, rest)

/-- Reads a single test: a path, a comparison, or either in parentheses. A path in parentheses may go on. -/
def readTest : Nat → List Token → Reading (Test × List Token)
  | 0, _ => .error none
  | fuel + 1, .bang :: rest => do
    let (path, rest) ← readTested fuel rest
    .ok (.inr (.absent path), rest)
  | fuel + 1, .openParen :: rest => do
    let (test, rest) ← readAlternatives fuel rest
    let rest ← expect .closeParen rest
    match test with
    | .inl path => do
      let (path, rest) ← readOn fuel path rest
      let (path, rest) ← endTested fuel path rest
      readComparison path rest
    | .inr condition => .ok (.inr condition, rest)
  | fuel + 1, tokens => do
    let (path, rest) ← readTested fuel tokens
    readComparison path rest

end

/-- Why a text is no path. -/
inductive Misread where
  | malformed
  /-- It has a whole number of too many digits where its grammar breaks off. -/
  | tooManyDigits (digits : Nat)
  deriving DecidableEq, Repr

/-- What keeps a text from being a path, by the word where it breaks off. -/
def Misread.ofToken : Option Token → Misread
  | some (.tooLong digits) => .tooManyDigits digits
  | _ => .malformed

/-- The path of a text. A word is met at most once on each level of the grammar, of which there are less than
sixteen. -/
def Path.ofText (text : String) : Except Misread Path :=
  let words := tokens text.toList
  match readPath (16 * (words.length + 1)) words with
  | .ok (path, []) => .ok path
  | .ok (_, token :: _) => .error (.ofToken (some token))
  | .error token => .error (.ofToken token)

end Schemata.Query

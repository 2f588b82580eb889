import Schemata.Bytes.Utf8

/-!
# Percent escapes

A percent sign and two hexadecimal digits stand for an octet, and octets in a row for the characters whose UTF-8 they
are. Two rules read them.

* In a path (`decodeSegment`), escapes that are no escapes, and octets that are no text, are kept as they are written. A
  slash and a percent sign are read in a second pass over the text (`slashes`, `percents`), where the digits of their
  escapes may themselves come from escapes.
* In a query (`decodeQueryPart`), octets that are no text are replaced, and a plus sign stands for a space.
-/

namespace Schemata.Http

/-! ## Paths -/

/-- The two digits of an escape. -/
abbrev Digits := Char × Char

/-- The octets of escapes. -/
def octetsOf (escapes : List Digits) : Bytes :=
  escapes.map fun (high, low) => UInt8.ofNat ((hexNumber? [high, low]).getD 0)

/-- Escapes as they are written, behind the characters already read, the latest first. -/
def writtenOnto (done : List Char) (escapes : List Digits) : List Char :=
  escapes.foldl (fun done (high, low) => low :: high :: '%' :: done) done

/-- A character that escapes stand for, behind the characters already read. A slash and a percent sign are left for the
second pass. -/
def charOnto (done : List Char) (c : Char) : List Char :=
  if c = '/' then writtenOnto done [('2', 'F')]
  else if c = '%' then writtenOnto done [('2', '5')]
  else c :: done

/-- The characters read so far and the escapes held back, after one more escape. -/
def withEscape (done : List Char) (held : List Digits) (escape : Digits) : List Char × List Digits :=
  match Bytes.Lead.ofBytes (octetsOf (held ++ [escape])) with
  | .char c _ => (charOnto done c, [])
  | .short => (done, held ++ [escape])
  | .badStart | .badNext _ =>
    let done := writtenOnto done held
    match Bytes.Lead.ofBytes (octetsOf [escape]) with
    | .char c _ => (charOnto done c, [])
    | .short => (done, [escape])
    | .badStart | .badNext _ => (writtenOnto done [escape], [])

/-- Reads a text behind the characters already read, the latest first, with the escapes held back that start a
character. -/
def decodeOnto (done : List Char) (held : List Digits) (cs : List Char) : List Char :=
  match cs with
  | [] => (writtenOnto done held).reverse
  | '%' :: high :: low :: rest =>
    match hexNumber? [high, low] with
    | some _ =>
      let next := withEscape done held (high, low)
      decodeOnto next.1 next.2 rest
    | none => decodeOnto ('%' :: writtenOnto done held) [] (high :: low :: rest)
  | c :: rest => decodeOnto (c :: writtenOnto done held) [] rest
termination_by cs.length

/-- A text with the escapes of slashes read. -/
def slashes : List Char → List Char
  | '%' :: '2' :: 'F' :: rest => '/' :: slashes rest
  | c :: rest => c :: slashes rest
  | [] => []

/-- A text with the escapes of percent signs read. -/
def percents : List Char → List Char
  | '%' :: '2' :: '5' :: rest => '%' :: percents rest
  | c :: rest => c :: percents rest
  | [] => []

/-- A segment of a path with its escapes read. -/
def decodeSegment (cs : List Char) : String := String.ofList (percents (slashes (decodeOnto [] [] cs)))

/-! ## Queries -/

/-- The octets of a text of a query. -/
def queryOctets (cs : List Char) : Bytes :=
  match cs with
  | [] => []
  | '%' :: high :: low :: rest =>
    match hexNumber? [high, low] with
    | some n => UInt8.ofNat n :: queryOctets rest
    | none => Bytes.ofText "%" ++ queryOctets (high :: low :: rest)
  | '+' :: rest => Bytes.ofText " " ++ queryOctets rest
  | c :: rest => Bytes.ofText (String.singleton c) ++ queryOctets rest
termination_by cs.length

/-- A text of a query with its escapes read. -/
def decodeQueryPart (cs : List Char) : String := String.ofList (Bytes.charsWithin (queryOctets cs))

end Schemata.Http

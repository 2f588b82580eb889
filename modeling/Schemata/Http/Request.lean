import Schemata.Http.Percent
import Schemata.Text.Split

/-!
# Requests

The target of a request has a path, cut into segments before escapes are read, and a query of named values. A header's
name is compared without regard to the size of letters. A method is compared as it stands, but clients put it into
capitals (`Request.ofClient`).
-/

namespace Schemata.Http

/-- A request. -/
structure Request where
  method : String
  target : String
  headers : List (String × String)
  body : Bytes

/-- The request that a client sends for a method in letters of any size. -/
def Request.ofClient (method target : String) (headers : List (String × String)) (body : Bytes) : Request :=
  ⟨method.map Char.toUpper, target, headers, body⟩

/-- What a request is addressed to. -/
structure Target where
  segments : List String
  query : List (String × String)
  deriving DecidableEq, Repr

/-- One named value of a query; without an equals sign the value is empty. -/
def queryPair (cs : List Char) : String × String :=
  let (name, value) := Text.cut '=' cs
  (decodeQueryPart name, decodeQueryPart value)

/-- The target that a text shows. What follows a hash sign belongs to the client alone. -/
def Target.ofText (text : String) : Target :=
  let sent := (Text.cut '#' text.toList).1
  let (path, query) := Text.cut '?' sent
  ⟨(Text.splitOn '/' path).map decodeSegment,
    if query.isEmpty then [] else (Text.splitOn '&' query).map queryPair⟩

/-- The first value of a name. -/
def Target.value? (target : Target) (name : String) : Option String := target.query.lookup name

/-- The header of a name, which is given in small letters. -/
def Request.header? (request : Request) (name : String) : Option String :=
  (request.headers.find? fun header => header.1.map Char.toLower = name).map (·.2)

end Schemata.Http

import Schemata.Http.Request

/-!
# Routes

Schemas are reached under `/v1/schemas`, in the default context, and under `/v1/contexts/{context}/schemas`. A segment
that names a context, a schema or a version is not empty and holds no braces; all other segments are literal. Each
route takes some methods alone.
-/

namespace Schemata.Http

/-- What a path leads to. -/
inductive Route where
  | schemas (context : Option String)
  | schema (context : Option String) (label : String)
  | versions (context : Option String) (label : String)
  | version (context : Option String) (label version : String)
  | health
  deriving DecidableEq, Repr

namespace Route

/-- Whether a segment can name something. -/
def isName (segment : String) : Bool := !segment.isEmpty && !segment.any fun c => c = '\x7b' || c = '\x7d'

/-- The route below a context. -/
def below (context : Option String) : List String → Option Route
  | ["schemas"] => some (.schemas context)
  | ["schemas", label] => if isName label then some (.schema context label) else none
  | ["schemas", label, "versions"] => if isName label then some (.versions context label) else none
  | ["schemas", label, "versions", number] =>
    if isName label && isName number then some (.version context label number) else none
  | _ => none

/-- The route of a path. -/
def ofSegments? : List String → Option Route
  | ["", "v1", "health"] => some .health
  | "" :: "v1" :: "contexts" :: context :: rest => if isName context then below (some context) rest else none
  | "" :: "v1" :: rest => below none rest
  | _ => none

/-- The methods that a route takes, in alphabetical order. -/
def methods : Route → List String
  | schemas _ => ["PUT"]
  | schema _ _ => ["DELETE", "GET", "HEAD", "POST"]
  | versions _ _ => ["GET", "HEAD"]
  | version _ _ _ => ["DELETE", "GET", "HEAD"]
  | health => ["GET", "HEAD"]

end Route

end Schemata.Http

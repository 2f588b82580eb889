import Schemata.Http.Route
import Schemata.Json.Finite
import Schemata.Service.Operations

/-!
# The application

A request is answered in three layers. The innermost one finds the route and calls the service. Around it, a failure
that was not foreseen becomes an envelope with status 500 and is noted. The outermost one answers the questions of
browsers, which reach no route, and puts the headers for other origins on every response. So every request gets a
response (`Application.handle`).
-/

namespace Schemata.Http

open Json (Value)
open Catalog (Work)
open Service (Envelope)
open Table (Program)

/-! ## Responses -/

/-- What a response carries. -/
inductive Body where
  | json (document : Value)
  | text (text : String)
  /-- Nothing, as to a request for headers alone. -/
  | absent

/-- A response. -/
structure Response where
  status : Int
  contentType : String
  body : Body
  /-- The methods that the route takes, if it does not take the request's. -/
  allow : Option String
  /-- The origin that may read the response. -/
  allowOrigin : Option String
  /-- The methods that other origins may use. -/
  allowMethods : Option String
  /-- The headers that other origins may send. -/
  allowHeaders : Option String

namespace Response

/-- A response without headers. -/
def bare (status : Int) (contentType : String) (body : Body) : Response :=
  ⟨status, contentType, body, none, none, none, none⟩

/-- A JSON document. -/
def json (status : Int) (document : Value) : Response := bare status "application/json" (.json document)

/-- A text. -/
def text (status : Int) (words : String) : Response := bare status "text/plain" (.text words)

/-- An envelope; its status is the response's. Numbers that JSON has no form for are sent as null. -/
def ofEnvelope (envelope : Envelope) : Response :=
  json envelope.status (.object { envelope with values := envelope.values.map Value.finite }.fields)

/-- The response without its body. -/
def headOnly (response : Response) : Response := { response with body := .absent }

/-- No route. -/
def notFound : Response := text 404 "404: Not Found"

/-- A route that takes other methods. -/
def methodNotAllowed (methods : List String) : Response :=
  { text 405 "405: Method Not Allowed" with allow := some (",".intercalate methods) }

end Response

/-! ## Limits -/

/-- The most octets that a body may have. -/
def maxBody : Nat := 1048576

/-- A body that is too long. -/
def Response.tooLarge : Response :=
  text 413 ("Maximum request body size " ++ Text.ofNat maxBody ++ " exceeded.")

/-- The version that a segment names: an integer from one to below `2 ^ 63`. -/
def versionOfSegment (segment : String) : Option Int :=
  match Text.integer? segment with
  | some n => if 0 < n ∧ n < Int.pow 2 63 then some n else none
  | none => none

/-! ## Handling -/

/-- A service that answers requests, and the origins that may read its responses. -/
structure Application where
  service : Service
  /-- The allowed origins; a star allows all. -/
  origins : List String

namespace Application

/-- The health of the server. -/
def healthy : Response := .json 200 (.object [("healthy", .bool true), ("service", .string "schemastore")])

/-- Calls an operation on the version that a segment names. -/
def withVersion (segment : String) (operation : Int → Work Envelope) : Work Envelope :=
  match versionOfSegment segment with
  | some version => operation version
  | none => return .error ("Invalid schema version '" ++ segment ++ "'.")

/-- Serves a method of a route. -/
def serve (service : Service) (target : Target) (body : Bytes) (method : String) : Route → Work Response
  | .health => return healthy
  | .schemas context =>
    return .ofEnvelope <| ← service.describe context (target.value? "id") (target.value? "name")
      (target.value? "description") (target.value? "type")
  | .schema context label =>
    return .ofEnvelope <| ←
      if method = "POST" then service.append context (some label) (some body)
      else if method = "DELETE" then service.erase context (some label)
      else service.entry context (some label) none
  | .versions context label => return .ofEnvelope <| ← service.numbers context (some label)
  | .version context label version =>
    return .ofEnvelope <| ← withVersion version fun version =>
      if method = "DELETE" then service.eraseVersion context (some label) version
      else service.entry context (some label) (some version)

/-- Turns a failure that was not foreseen into a response. -/
def guardFailures (work : Work Response) : Program Response := do
  match ← work.run with
  | .ok response => return response
  | .error failure =>
    .note ⟨.http, .error, "HTTP handler error: " ++ failure.message, [], true⟩
      (.done (.ofEnvelope (.error failure.message)))

/-- Finds the route of a request and serves it. -/
def answer (app : Application) (request : Request) : Program Response :=
  let target := Target.ofText request.target
  match Route.ofSegments? target.segments with
  | none => return .notFound
  | some route =>
    if request.method ∉ route.methods then return .methodNotAllowed route.methods
    else if request.method = "POST" ∧ maxBody < request.body.length then return .tooLarge
    else guardFailures (serve app.service target request.body request.method route)

/-- The origin of a request; a star stands for none. -/
def origin (request : Request) : String := (request.header? "origin").getD "*"

/-- Puts the headers for other origins on a response. -/
def withOrigins (app : Application) (request : Request) (response : Response) : Response :=
  { response with
    allowOrigin :=
      if "*" ∈ app.origins ∨ origin request ∈ app.origins then some (origin request) else response.allowOrigin
    allowMethods := some "GET, POST, PUT, DELETE, OPTIONS"
    allowHeaders := some "Content-Type" }

/-- Answers a request. -/
def handle (app : Application) (request : Request) : Program Response := do
  let response ←
    if request.method = "OPTIONS" then pure (.bare 200 "application/octet-stream" (.text ""))
    else app.answer request
  let response := app.withOrigins request response
  return if request.method = "HEAD" then response.headOnly else response

end Application

end Schemata.Http

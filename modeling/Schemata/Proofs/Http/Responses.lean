import Schemata.Http.Application
import Schemata.Proofs.Http.Targets
import Schemata.Proofs.Service.Demands

/-!
# Responses

Every request has a response, whatever the registry does (`requests_answered`). A request for the options of a route
reaches none (`handle_of_options`). Any other either reaches a route, whose work is then run and its end settled: a
failure that was not foreseen becomes a response, too (`run_handle_of_reaches`); or it is turned away before the table
is asked (`answer_of_not_reaches`). What a route of schemas ends with is an envelope in either case
(`exists_settled_eq`), and the headers for other origins are put on whatever comes out (`sharedBy_handle`).
-/

namespace Schemata.Http

open Catalog (Failure Work)
open Service (Envelope)
open Table (Backend Outcome Program)

/-- The application over the standard registry, with a default context and the allowed origins. -/
def Application.standard (context : String) (origins : List String) : Application := ⟨.standard context, origins⟩

/-! ## What responses hold -/

/-- The fields of an envelope: they tell a status, a message, and the values with their count. -/
structure EnvelopeFields (fields : Json.Fields) (status : Int) : Prop where
  status : Json.field? "status" fields = some (.int status)
  message : ∃ message, Json.field? "message" fields = some (.string message)
  values : ∃ values, Json.field? "values" fields = some (.array values) ∧
    Json.field? "count" fields = some (.int values.length)

namespace Response

/-- A JSON document that is an envelope with the status of the response. -/
structure IsEnvelope (response : Response) : Prop where
  contentType : response.contentType = "application/json"
  body : ∃ fields, response.body = .json (.object fields) ∧ EnvelopeFields fields response.status

theorem isEnvelope_ofEnvelope (envelope : Envelope) : (ofEnvelope envelope).IsEnvelope where
  contentType := rfl
  body := ⟨_, rfl, rfl, ⟨_, rfl⟩, ⟨_, rfl, rfl⟩⟩

/-- The headers for other origins that are allowed. -/
structure SharedBy (app : Application) (request : Request) (response : Response) : Prop where
  methods : response.allowMethods = some "GET, POST, PUT, DELETE, OPTIONS"
  headers : response.allowHeaders = some "Content-Type"
  origin : response.allowOrigin =
    if "*" ∈ app.origins ∨ Application.origin request ∈ app.origins then some (Application.origin request) else none

end Response

/-- A response as it is sent: with the headers for other origins, and without its body where headers alone are asked
for. -/
def Application.sent (app : Application) (request : Request) (response : Response) : Response :=
  if request.method = "HEAD" then (app.withOrigins request response).headOnly else app.withOrigins request response

theorem status_sent (app : Application) (request : Request) (response : Response) :
    (app.sent request response).status = response.status := by
  unfold Application.sent
  split <;> rfl

/-- An envelope is sent as it is, unless headers alone are asked for. -/
theorem isEnvelope_sent {app : Application} {request : Request} {response : Response} (h : response.IsEnvelope)
    (hhead : request.method ≠ "HEAD") : (app.sent request response).IsEnvelope := by
  unfold Application.sent
  rw [if_neg hhead]
  exact ⟨h.contentType, h.body⟩

/-- A response that names no origin of its own is shared with the allowed ones alone. -/
theorem sharedBy_sent {app : Application} {request : Request} {response : Response} (h : response.allowOrigin = none) :
    (app.sent request response).SharedBy app request := by
  unfold Application.sent
  split
  · exact ⟨rfl, rfl, by rw [← h]; rfl⟩
  · exact ⟨rfl, rfl, by rw [← h]; rfl⟩

/-! ## Layers -/

/-- A response, or the response to a failure that was not foreseen. -/
def settled : Except Failure Response → Response
  | .ok response => response
  | .error failure => .ofEnvelope (.error failure.message)

/-- What is noted of an end: a failure that was not foreseen. -/
def unforeseen : Except Failure Response → List Log.Record
  | .ok _ => []
  | .error failure => [⟨.http, .error, "HTTP handler error: " ++ failure.message, [], true⟩]

/-- The request leads to a route that takes its method, and its body is not too long. -/
structure Request.Reaches (request : Request) (route : Route) : Prop where
  routed : Route.ofSegments? (Target.ofText request.target).segments = some route
  taken : request.method ∈ route.methods
  fits : ¬(request.method = "POST" ∧ maxBody < request.body.length)

section Layers

variable {σ : Type} {app : Application} {request : Request} {route : Route}

/-- A request for options reaches no route. -/
theorem handle_of_options (h : request.method = "OPTIONS") :
    app.handle request = pure (app.sent request (.bare 200 "application/octet-stream" (.text ""))) := by
  unfold Application.handle
  rw [if_pos h]
  rfl

/-- Any other request is answered, and the answer is sent. -/
theorem handle_eq (h : request.method ≠ "OPTIONS") :
    app.handle request = app.answer request >>= fun response => pure (app.sent request response) := by
  unfold Application.handle
  rw [if_neg h]
  rfl

/-- The work that a request asks for. -/
def Application.workOf (app : Application) (request : Request) (route : Route) : Work Response :=
  Application.serve app.service (Target.ofText request.target) request.body request.method route

/-- A request that reaches a route is answered by it. -/
theorem answer_of_reaches (h : request.Reaches route) :
    app.answer request = Application.guardFailures (app.workOf request route) := by
  unfold Application.answer
  simp only [h.routed]
  rw [if_neg (fun htaken => htaken h.taken), if_neg h.fits]
  rfl

/-- A request that reaches no route is turned away. -/
theorem answer_of_not_reaches (app : Application) (h : ¬∃ route, request.Reaches route) :
    ∃ response : Response, app.answer request = pure response ∧ response.allowOrigin = none ∧
      (response.status = 404 ∨ response.status = 405 ∨ response.status = 413) := by
  unfold Application.answer
  simp only
  cases hroute : Route.ofSegments? (Target.ofText request.target).segments with
  | none => exact ⟨.notFound, rfl, rfl, .inl rfl⟩
  | some route =>
    by_cases htaken : request.method ∈ route.methods
    · have hlong : request.method = "POST" ∧ maxBody < request.body.length :=
        Decidable.not_not.1 fun hfits => h ⟨route, hroute, htaken, hfits⟩
      simp only [if_neg (not_not_intro htaken), if_pos hlong]
      exact ⟨.tooLarge, rfl, rfl, .inr (.inr rfl)⟩
    · simp only [if_pos htaken]
      exact ⟨.methodNotAllowed route.methods, rfl, rfl, .inr (.inl rfl)⟩

/-- **A guarded work ends with a response**, after a note if it fails. -/
theorem run_guardFailures (work : Work Response) (backend : Backend σ) (s : σ) :
    (Application.guardFailures work).run backend s =
      ⟨settled (work.run.run backend s).value, (work.run.run backend s).state,
        (work.run.run backend s).log ++ unforeseen (work.run.run backend s).value⟩ := by
  refine (Program.run_bind backend work.run _ s).trans ?_
  cases (work.run.run backend s).value <;> rfl

/-- **What a request that reaches a route comes to**: the end of its work, settled and sent. -/
theorem run_handle_of_reaches (hoptions : request.method ≠ "OPTIONS") (h : request.Reaches route)
    (backend : Backend σ) (s : σ) :
    (app.handle request).run backend s =
      ⟨app.sent request (settled ((app.workOf request route).run.run backend s).value),
        ((app.workOf request route).run.run backend s).state,
        ((app.workOf request route).run.run backend s).log ++
          unforeseen ((app.workOf request route).run.run backend s).value⟩ := by
  rw [handle_eq hoptions, answer_of_reaches h, Program.run_bind, run_guardFailures]
  simp only [Program.pure_eq, Program.run_done, List.append_nil]

end Layers

/-! ## Routes of schemas -/

/-- The context that a route names. -/
def Route.context : Route → Option String
  | schemas context | schema context _ | versions context _ | version context _ _ => context
  | health => none

section Routes

open Service (Demand orElse)

variable {σ : Type} (app : Application) (request : Request) {route : Route}

/-- **A route of schemas makes one demand on the service** in its context and tells the envelope; or it tells that a
segment names no version. -/
theorem workOf_cases (h : route ≠ .health) :
    (∃ demand : Demand, (demand.identity app.service).context = orElse app.service.defaultContext route.context ∧
      app.workOf request route = demand.work app.service >>= fun envelope => pure (.ofEnvelope envelope)) ∨
    ∃ message, app.workOf request route = pure (.ofEnvelope (.error message)) := by
  unfold Application.workOf Application.serve
  cases route with
  | health => exact absurd rfl h
  | schemas context => exact .inl ⟨.describe context _ _ _ _, rfl, rfl⟩
  | schema context label =>
    refine .inl ?_
    simp only
    split
    · exact ⟨.append context (some label) (some request.body), rfl, rfl⟩
    · split
      · exact ⟨.erase context (some label), rfl, rfl⟩
      · exact ⟨.entry context (some label) none, rfl, rfl⟩
  | versions context label => exact .inl ⟨.numbers context (some label), rfl, rfl⟩
  | version context label segment =>
    simp only [Application.withVersion]
    cases versionOfSegment segment with
    | none => exact .inr ⟨_, rfl⟩
    | some n =>
      refine .inl ?_
      simp only
      split
      · exact ⟨.eraseVersion context (some label) n, rfl, rfl⟩
      · exact ⟨.entry context (some label) (some n), rfl, rfl⟩

/-- **What a route of schemas ends with is an envelope**, whatever its work comes to. -/
theorem exists_settled_eq (h : route ≠ .health) (backend : Backend σ) (s : σ) :
    ∃ envelope, settled ((app.workOf request route).run.run backend s).value = .ofEnvelope envelope := by
  rcases workOf_cases app request h with ⟨demand, -, hwork⟩ | ⟨message, hwork⟩
  · have hvalue : ((app.workOf request route).run.run backend s).value =
        ((demand.work app.service).run.run backend s).value.map Response.ofEnvelope := by
      rw [hwork]
      refine (congrArg Outcome.value (Program.run_bind backend (demand.work app.service).run _ s)).trans ?_
      cases ((demand.work app.service).run.run backend s).value <;> rfl
    rw [hvalue]
    cases ((demand.work app.service).run.run backend s).value with
    | ok envelope => exact ⟨envelope, rfl⟩
    | error failure => exact ⟨_, rfl⟩
  · rw [hwork]
    exact ⟨_, rfl⟩

/-- A route names no origin on its own. -/
theorem allowOrigin_settled (backend : Backend σ) (s : σ) :
    (settled ((app.workOf request route).run.run backend s).value).allowOrigin = none := by
  by_cases h : route = .health
  · subst h
    rfl
  · obtain ⟨envelope, henvelope⟩ := exists_settled_eq app request h backend s
    rw [henvelope]
    rfl

end Routes

/-- **Every response is shared** with the allowed origins, on whichever way it came out. -/
theorem sharedBy_handle {σ : Type} (app : Application) (request : Request) (backend : Backend σ) (s : σ) :
    ((app.handle request).run backend s).value.SharedBy app request := by
  by_cases hoptions : request.method = "OPTIONS"
  · rw [handle_of_options hoptions]
    exact sharedBy_sent rfl
  by_cases hreaches : ∃ route, request.Reaches route
  · obtain ⟨route, hreaches⟩ := hreaches
    rw [run_handle_of_reaches hoptions hreaches]
    exact sharedBy_sent (allowOrigin_settled app request backend s)
  · obtain ⟨response, hanswer, horigin, -⟩ := answer_of_not_reaches app hreaches
    rw [handle_eq hoptions, hanswer]
    exact sharedBy_sent horigin

/-- **Every request is answered**, whatever the registry of the application does and whichever table answers it. The
response is shared with the allowed origins alone. A request for options has an empty response, whatever the service is,
and the table is not asked. A request to a route of schemas has an envelope with the status of the response, of which
only the headers are sent where these alone are asked for; if the work fails, the envelope tells the failure. A request
that reaches no route is turned away, and the table is not asked. -/
theorem requests_answered {σ : Type} (app : Application) (request : Request) (backend : Backend σ) (s : σ) :
    ((app.handle request).run backend s).value.SharedBy app request ∧
    (request.method = "OPTIONS" →
      (∀ service : Service, { app with service }.handle request = app.handle request) ∧
      (app.handle request).run backend s =
        ⟨app.sent request (.bare 200 "application/octet-stream" (.text "")), s, []⟩) ∧
    (request.method ≠ "OPTIONS" → ∀ route, request.Reaches route → route ≠ .health →
      (request.method ≠ "HEAD" → ((app.handle request).run backend s).value.IsEnvelope) ∧
      ∃ response : Response, response.IsEnvelope ∧
        ((app.handle request).run backend s).value = app.sent request response ∧
        ∀ failure, ((app.workOf request route).run.run backend s).value = .error failure →
          response = .ofEnvelope (.error failure.message)) ∧
    (request.method ≠ "OPTIONS" → (¬∃ route, request.Reaches route) →
      ((app.handle request).run backend s).state = s ∧
        (((app.handle request).run backend s).value.status = 404 ∨
          ((app.handle request).run backend s).value.status = 405 ∨
            ((app.handle request).run backend s).value.status = 413)) := by
  refine ⟨sharedBy_handle app request backend s, fun hoptions => ⟨fun service => ?_, ?_⟩,
    fun hoptions route hreaches hschema => ?_, fun hoptions hnone => ?_⟩
  · rw [handle_of_options hoptions, handle_of_options hoptions]
    rfl
  · rw [handle_of_options hoptions]
    rfl
  · obtain ⟨envelope, henvelope⟩ := exists_settled_eq app request hschema backend s
    have hvalue : ((app.handle request).run backend s).value = app.sent request (.ofEnvelope envelope) := by
      rw [run_handle_of_reaches hoptions hreaches, henvelope]
    have hsends := Response.isEnvelope_ofEnvelope envelope
    refine ⟨fun hhead => ?_, _, hsends, hvalue, fun failure hfailure => ?_⟩
    · rw [hvalue]
      exact isEnvelope_sent hsends hhead
    · rw [← henvelope, hfailure]
      rfl
  · obtain ⟨response, hanswer, -, hstatus⟩ := answer_of_not_reaches app hnone
    rw [handle_eq hoptions, hanswer]
    refine ⟨rfl, ?_⟩
    change (app.sent request response).status = 404 ∨ (app.sent request response).status = 405 ∨
      (app.sent request response).status = 413
    rw [status_sent]
    exact hstatus

namespace Sample

/-- The label of a schema, as paths write it. -/
def orders : Address := ⟨none, "orders", by decide, by decide⟩

/-- An application whose registry fails in an unforeseen way where it is to list versions. -/
def broken : Application := ⟨⟨.failing .list "registry exploded" .standard, "main"⟩, ["http://localhost:3000"]⟩

/-- The list of versions is asked for from another origin. -/
def elsewhere (method : String) : Request := ⟨method, orders.listing, [("Origin", "http://localhost:3000")], []⟩

end Sample

/-- The other origin is told in an envelope what was not foreseen, and the options of the route without asking it. -/
theorem requests_answered_broken :
    ((Sample.broken.handle (Sample.elsewhere "GET")).run Table.Store.backend (.memory .empty)).value.IsEnvelope ∧
      ((Sample.broken.handle (Sample.elsewhere "GET")).run Table.Store.backend (.memory .empty)).value.status = 500 ∧
      ((Sample.broken.handle (Sample.elsewhere "GET")).run Table.Store.backend (.memory .empty)).value.allowOrigin =
        some "http://localhost:3000" ∧
      ((Sample.broken.handle (Sample.elsewhere "OPTIONS")).run Table.Store.backend (.memory .empty)).value.status =
        200 := by
  obtain ⟨hshared, -, hroutes, -⟩ :=
    requests_answered Sample.broken (Sample.elsewhere "GET") Table.Store.backend (.memory .empty)
  have hreaches : (Sample.elsewhere "GET").Reaches (.versions none "orders") :=
    ⟨Address.route_listing Sample.orders, by decide, by decide⟩
  have horigin : Application.origin (Sample.elsewhere "GET") = "http://localhost:3000" := by decide +kernel
  obtain ⟨henvelope, response, -, hvalue, hfailed⟩ := hroutes (by decide) _ hreaches nofun
  refine ⟨henvelope (by decide), ?_, ?_, ?_⟩
  · rw [hvalue, status_sent, hfailed (.unexpected "registry exploded") rfl]
    rfl
  · rw [hshared.origin, horigin]
    exact if_pos (.inr (by decide))
  · obtain ⟨-, hoptions, -⟩ :=
      requests_answered Sample.broken (Sample.elsewhere "OPTIONS") Table.Store.backend (.memory .empty)
    rw [(hoptions rfl).2]
    exact status_sent _ _ _

end Schemata.Http

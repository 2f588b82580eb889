import Schemata.Proofs.Catalog.Isolation
import Schemata.Proofs.Http.Responses

/-!
# Two forms of routes

Every route of schemas has a short form and one under a context. Both forms of a target have the same segments behind
the context, and the same query (`ofText_shortForm`, `ofText_longForm`). So they lead to the same route but for the
context (`ofSegments?_longForm`), or both nowhere; and where the context is the default one, the service makes no
difference between naming it and naming none (`serve_under`).

A request that is not for another context keeps to the keys of the default one (`confined_handle`), and a request for
another context changes none of these. So requests for other contexts can be left out, and nobody else notices
(`answers_filter`).
-/

namespace Schemata.Http

open Catalog (Identity Work)
open Service (Demand orElse)
open Table (Contents Outcome Program Script Store)

/-! ## Targets in two forms -/

/-- A target of schemas in the default context. -/
def shortForm (rest : String) : String := "/v1/schemas" ++ rest

/-- A target of schemas in a context. -/
def longForm (context rest : String) : String := "/v1/contexts/" ++ context ++ "/schemas" ++ rest

/-- What both forms have in common. -/
def common (rest : String) : Target := Target.ofText ("schemas" ++ rest)

section Forms

variable (rest : String)

/-- The common segments start with one that is no word for contexts or for health. -/
theorem exists_common_segments_eq :
    ∃ first others, (common rest).segments = first :: others ∧ first ≠ "contexts" ∧ first ≠ "health" := by
  -- the segment may go on behind `schemas` and its escapes are read, but it starts with an s all the same
  obtain ⟨path, hpath⟩ : ∃ path, (common rest).segments = (Text.splitOn '/' ('s' :: path)).map decodeSegment := by
    have hhash : '#' ∉ "schemas".toList := by decide
    have hquestion : '?' ∉ "schemas".toList := by decide
    refine ⟨"chemas".toList ++ (Text.cut '?' (Text.cut '#' rest.toList).1).1, ?_⟩
    rw [common, Target.ofText, String.toList_append]
    simp only [cut_append hhash, cut_append hquestion]
    rfl
  rw [hpath, Text.splitOn_cons (by decide), List.map_cons]
  obtain ⟨read, hread⟩ := exists_decodeSegment_cons (c := 's') (by decide) ((Text.splitOn '/' path).headD [])
  have hne : ∀ word : String, word.toList.head? ≠ some 's' → String.ofList ('s' :: read) ≠ word := by
    rintro _ h rfl
    rw [String.toList_ofList] at h
    exact h rfl
  rw [hread]
  exact ⟨_, _, rfl, hne _ (by decide), hne _ (by decide)⟩

theorem toList_contexts :
    "/v1/contexts/".toList = '/' :: "v1".toList ++ '/' :: "contexts".toList ++ ['/'] := by decide

theorem ofText_shortForm :
    Target.ofText (shortForm rest) = ⟨"" :: "v1" :: (common rest).segments, (common rest).query⟩ := by
  have hwords : ∀ word ∈ ["v1"], IsPlainWord word := by decide
  refine ofText_words hwords ?_
  have hfront : "/v1/schemas".toList = ["v1".toList].flatMap ('/' :: ·) ++ '/' :: "schemas".toList := by decide
  simp only [shortForm, String.toList_append, hfront, List.map_cons, List.map_nil, List.append_assoc, List.cons_append]

theorem ofText_longForm (name : PlainName) :
    Target.ofText (longForm name.text rest) =
      ⟨"" :: "v1" :: "contexts" :: name.text :: (common rest).segments, (common rest).query⟩ := by
  have hwords : ∀ word ∈ ["v1", "contexts", name.text], IsPlainWord word := by
    have hv1 : IsPlainWord "v1" := by decide
    have hcontexts : IsPlainWord "contexts" := by decide
    simpa using ⟨hv1, hcontexts, name.plain⟩
  refine ofText_words hwords ?_
  have hschemas : "/schemas".toList = '/' :: "schemas".toList := by decide
  unfold longForm
  simp only [String.toList_append, toList_contexts, hschemas, List.map_cons, List.map_nil, List.flatMap_cons,
    List.flatMap_nil, List.append_assoc, List.cons_append, List.nil_append]

end Forms

/-! ## One route in two forms -/

/-- The route under a context. -/
def Route.under (context : Option String) : Route → Route
  | schemas _ => schemas context
  | schema _ label => schema context label
  | versions _ label => versions context label
  | version _ label number => version context label number
  | health => health

theorem Route.methods_under (context : Option String) (route : Route) :
    (route.under context).methods = route.methods := by
  cases route <;> rfl

/-- The route below a context is that below none, under the context. -/
theorem Route.below_eq (context : Option String) (segments : List String) :
    below context segments = (below none segments).map (under context) := by
  unfold below
  split
  · rfl
  · split <;> rfl
  · split <;> rfl
  · split <;> rfl
  · rfl

/-- A route below a context names it. -/
theorem Route.context_of_below {context : Option String} {segments : List String} {route : Route}
    (h : below context segments = some route) : route.context = context := by
  unfold below at h
  split at h
  · cases h
    rfl
  · split at h <;> cases h
    rfl
  · split at h <;> cases h
    rfl
  · split at h <;> cases h
    rfl
  · cases h

section Forms

variable (rest : String)

theorem ofSegments?_shortForm :
    Route.ofSegments? (Target.ofText (shortForm rest)).segments = Route.below none (common rest).segments := by
  obtain ⟨first, others, hcommon, hcontexts, hhealth⟩ := exists_common_segments_eq rest
  rw [ofText_shortForm, hcommon, Route.ofSegments?]
  · rintro ⟨⟩
    exact hhealth rfl
  · rintro context rest ⟨⟩
    exact hcontexts rfl

/-- **Both forms lead to the same route**, the long form under its context; or both lead nowhere. -/
theorem ofSegments?_longForm (name : PlainName) :
    Route.ofSegments? (Target.ofText (longForm name.text rest)).segments =
      (Route.ofSegments? (Target.ofText (shortForm rest)).segments).map (Route.under (some name.text)) := by
  rw [ofSegments?_shortForm, ofText_longForm, Route.ofSegments?, if_pos name.isName, Route.below_eq]

end Forms

/-- Naming the default context is naming none. -/
theorem identity_default (service : Service) (label : Option String) :
    service.identity (some service.defaultContext) label = service.identity none label := by
  unfold Service.identity orElse
  simp

/-- **A service makes no difference between its default context and none.** -/
theorem serve_under (service : Service) {target target' : Target} (hquery : target'.query = target.query) (body : Bytes)
    (method : String) {route : Route} (hroute : route.context = none) :
    Application.serve service target' body method (route.under (some service.defaultContext)) =
      Application.serve service target body method route := by
  have hvalue : ∀ name, target'.value? name = target.value? name := fun name => congrArg (List.lookup name) hquery
  cases route with
  | health => rfl
  | _ =>
    cases hroute
    simp only [Route.under, Application.serve, Service.describe, Service.append, Service.erase, Service.eraseVersion,
      Service.entry, Service.numbers, identity_default, hvalue]

/-- **The two forms of a request for the default context are handled alike.** -/
theorem handle_longForm {app : Application} {name : PlainName} (hname : app.service.defaultContext = name.text)
    (method rest : String) (headers : List (String × String)) (body : Bytes) :
    app.handle ⟨method, longForm name.text rest, headers, body⟩ =
      app.handle ⟨method, shortForm rest, headers, body⟩ := by
  have hanswer : app.answer ⟨method, longForm name.text rest, headers, body⟩ =
      app.answer ⟨method, shortForm rest, headers, body⟩ := by
    unfold Application.answer
    simp only [ofSegments?_longForm]
    cases hroute : Route.ofSegments? (Target.ofText (shortForm rest)).segments with
    | none => rfl
    | some route =>
      have hquery : (Target.ofText (longForm name.text rest)).query = (Target.ofText (shortForm rest)).query := by
        rw [ofText_longForm, ofText_shortForm]
      have hcontext := Route.context_of_below ((ofSegments?_shortForm rest).symm.trans hroute)
      have hserve := serve_under app.service hquery body method hcontext
      rw [hname] at hserve
      simp only [Option.map_some, Route.methods_under, hserve]
  unfold Application.handle
  rw [hanswer]
  rfl

/-! ## Contexts of requests -/

/-- The context that the segments of a path go through. -/
def contextOf : List String → Option String
  | "" :: "v1" :: "contexts" :: context :: _ => some context
  | _ => none

theorem contextOf_eq_none {rest : List String} (h : ∀ context others, rest ≠ "contexts" :: context :: others) :
    contextOf ("" :: "v1" :: rest) = none := by
  unfold contextOf
  split
  · rename_i heq
    exact absurd (List.cons.inj (List.cons.inj heq).2).2 (h _ _)
  · rfl

/-- The request goes through a context other than the default one. -/
def Request.IsForeign (default : String) (request : Request) : Prop :=
  ∃ context ∈ contextOf (Target.ofText request.target).segments, context ≠ default

instance (default : String) (request : Request) : Decidable (request.IsForeign default) :=
  inferInstanceAs (Decidable (∃ context ∈ contextOf (Target.ofText request.target).segments, context ≠ default))

/-- No request in the short form is foreign. -/
theorem not_isForeign_shortForm (default method rest : String) (headers : List (String × String)) (body : Bytes) :
    ¬(⟨method, shortForm rest, headers, body⟩ : Request).IsForeign default := by
  obtain ⟨first, others, hcommon, hcontexts, -⟩ := exists_common_segments_eq rest
  have hnone : contextOf (Target.ofText (shortForm rest)).segments = none := by
    rw [ofText_shortForm, hcommon]
    exact contextOf_eq_none fun _ _ heq => hcontexts (List.cons.inj heq).1
  rintro ⟨context, hcontext, -⟩
  rw [hnone] at hcontext
  cases hcontext

/-- A request under a context other than the default one is foreign. -/
theorem isForeign_of_target {request : Request} {segment rest default : String}
    (hsegment : ∀ c ∈ segment.toList, IsWritten c) (hrest : ∀ c ∈ rest.toList.head?, ¬IsWritten c)
    (htarget : request.target = "/v1/contexts/" ++ segment ++ rest) (hne : decodeSegment segment.toList ≠ default) :
    request.IsForeign default := by
  obtain ⟨others, hothers⟩ := exists_segments_append hsegment hrest
  rw [← String.toList_append, String.ofList_toList] at hothers
  have hwords : ∀ word ∈ ["v1", "contexts"], IsPlainWord word := by decide
  have htext : request.target.toList = (["v1", "contexts"].map String.toList).flatMap ('/' :: ·) ++
      '/' :: (segment ++ rest).toList := by
    simp only [htarget, String.toList_append, toList_contexts, List.map_cons, List.map_nil, List.flatMap_cons,
      List.flatMap_nil, List.append_assoc, List.cons_append, List.nil_append]
  refine ⟨decodeSegment segment.toList, ?_, hne⟩
  rw [ofText_words hwords htext, hothers]
  rfl

/-- The route of a path is that for health, or goes through the context of the path, which can name something. -/
theorem context_of_ofSegments? {segments : List String} {route : Route} (h : Route.ofSegments? segments = some route) :
    route = .health ∨ route.context = contextOf segments ∧ ∀ context ∈ contextOf segments, Route.isName context := by
  unfold Route.ofSegments? at h
  split at h
  · exact .inl (Option.some.inj h).symm
  · split at h
    · rename_i hname
      refine .inr ⟨Route.context_of_below h, ?_⟩
      rintro _ ⟨⟩
      exact hname
    · cases h
  · rename_i rest hhealth hcontexts
    rw [contextOf_eq_none hcontexts]
    exact .inr ⟨Route.context_of_below h, nofun⟩
  · cases h

/-! ## Keys of a context -/

/-- An identity of the context owns the key. -/
def OwnedIn (context : String) (key : Bytes) : Prop := ∃ i : Identity, i.context = context ∧ i.Owns key

theorem OwnedIn.unique {context context' : String} {key : Bytes} (h : OwnedIn context key) (h' : OwnedIn context' key) :
    context = context' := by
  obtain ⟨i, rfl, hi⟩ := h
  obtain ⟨j, rfl, hj⟩ := h'
  rw [hi.unique hj]

/-- A demand on the standard service only asks for keys of its context. -/
theorem confined_demand (context : String) (demand : Demand) :
    (demand.work (.standard context)).Confined (OwnedIn (demand.identity (.standard context)).context) := by
  obtain ⟨x, hwork, hattempt⟩ := demand.exists_attempt context
  have hx : x.Confined (demand.identity (.standard context)).Owns :=
    hattempt.of_compositional Work.compositional_confined
  rw [hwork]
  refine Program.confined_bind (hx.mono fun key hkey => ⟨_, rfl, hkey⟩) fun r => ?_
  cases r with
  | ok envelope => trivial
  | error failure => cases failure <;> trivial

/-- The context that a request is for, where a default one stands for none. -/
def Request.contextWith (default : String) (request : Request) : String :=
  (contextOf (Target.ofText request.target).segments).getD default

theorem Request.isForeign_iff {default : String} {request : Request} :
    request.IsForeign default ↔ request.contextWith default ≠ default := by
  unfold IsForeign contextWith
  cases contextOf (Target.ofText request.target).segments <;> simp

/-- A route that a request reaches is for the context of the request. -/
theorem Request.Reaches.orElse_context {request : Request} {route : Route} (h : request.Reaches route)
    (hschema : route ≠ .health) (default : String) : orElse default route.context = request.contextWith default := by
  obtain ⟨hcontext, hname⟩ := (context_of_ofSegments? h.routed).resolve_left hschema
  rw [hcontext, Request.contextWith]
  cases hpath : contextOf (Target.ofText request.target).segments with
  | none => rfl
  | some context =>
    have hne : context.isEmpty = false := by
      have hisName := hname context hpath
      rw [Route.isName, Bool.and_eq_true] at hisName
      simpa using hisName.1
    simp [orElse, hne]

/-- The work of a route only asks for keys of the request's context. -/
theorem confined_workOf (default : String) (origins : List String) {request : Request} {route : Route}
    (h : request.Reaches route) :
    ((Application.standard default origins).workOf request route).Confined (OwnedIn (request.contextWith default)) := by
  by_cases hschema : route = .health
  · subst hschema
    trivial
  rw [← h.orElse_context hschema]
  rcases workOf_cases (.standard default origins) request hschema with ⟨demand, hdemand, hwork⟩ | ⟨message, hwork⟩
  · have hconfined := confined_demand default demand
    rw [show (demand.identity (.standard default)).context = orElse default route.context from hdemand] at hconfined
    rw [hwork]
    refine Program.confined_bind hconfined fun r => ?_
    cases r <;> trivial
  · rw [hwork]
    trivial

/-- **A request only asks for keys of its context.** -/
theorem confined_handle (default : String) (origins : List String) (request : Request) :
    ((Application.standard default origins).handle request).Confined (OwnedIn (request.contextWith default)) := by
  by_cases hoptions : request.method = "OPTIONS"
  · rw [handle_of_options hoptions]
    trivial
  rw [handle_eq hoptions]
  refine Program.confined_bind ?_ fun _ => trivial
  by_cases hreaches : ∃ route, request.Reaches route
  · obtain ⟨route, hreaches⟩ := hreaches
    rw [answer_of_reaches hreaches]
    refine Program.confined_bind (confined_workOf default origins hreaches) fun r => ?_
    cases r <;> trivial
  · obtain ⟨response, hanswer, -⟩ := answer_of_not_reaches (.standard default origins) hreaches
    rw [hanswer]
    trivial

/-! ## Requests one after the other -/

/-- What a request comes to on a table, with the failures of its commands. -/
def Application.visit (app : Application) (request : Request) (script : Script) (store : Store) :
    Outcome (Script × Store) Response :=
  (app.handle request).run (Store.backend.guarded Script.judge) (script, store)

/-- The answers to requests one after the other, each with the failures of its commands. -/
def Application.answers (app : Application) : List (Request × Script) → Store → List (Request × Response)
  | [], _ => []
  | (request, script) :: rest, store =>
    (request, (app.visit request script store).value) :: app.answers rest (app.visit request script store).state.2

section Visits

variable {default : String} (origins : List String) {request : Request} (script : Script) {store store' : Store}
  {s s' : Contents}

/-- A foreign request leaves the keys of the default context alone. -/
theorem exists_holds_visit_foreign (hforeign : request.IsForeign default) (hs : store.Holds s) :
    ∃ t, ((Application.standard default origins).visit request script store).state.2.Holds t ∧
      Contents.AgreeOn (OwnedIn default) s t := by
  obtain ⟨t, ht, hkept⟩ := (confined_handle default origins request).exists_holds_run Store.represents Script.judge
    script hs
  exact ⟨t, ht, fun key hkey => hkept key fun hother => Request.isForeign_iff.1 hforeign (hother.unique hkey)⟩

/-- Any other request is answered alike by tables with the same rows of the default context. -/
theorem visit_eq (hforeign : ¬request.IsForeign default) (hs : store.Holds s) (hs' : store'.Holds s')
    (hagree : Contents.AgreeOn (OwnedIn default) s s') :
    ((Application.standard default origins).visit request script store).value =
        ((Application.standard default origins).visit request script store').value ∧
      ∃ t t', ((Application.standard default origins).visit request script store).state.2.Holds t ∧
        ((Application.standard default origins).visit request script store').state.2.Holds t' ∧
          Contents.AgreeOn (OwnedIn default) t t' := by
  have hconfined := confined_handle default origins request
  rw [Decidable.not_not.1 (mt Request.isForeign_iff.2 hforeign)] at hconfined
  exact hconfined.run_eq Store.represents Script.judge script hs hs' hagree

/-- **Foreign requests can be left out** of requests one after the other: nobody else gets another answer. -/
theorem answers_filter (requests : List (Request × Script)) (hs : store.Holds s) (hs' : store'.Holds s')
    (hagree : Contents.AgreeOn (OwnedIn default) s s') :
    ((Application.standard default origins).answers requests store).filter (fun answer => ¬answer.1.IsForeign default) =
      (Application.standard default origins).answers
        (requests.filter fun request => ¬request.1.IsForeign default) store' := by
  -- all along, the two tables agree on the keys of the default context
  induction requests generalizing store store' s s' with
  | nil => rfl
  | cons first rest ih =>
    obtain ⟨request, script⟩ := first
    by_cases hforeign : request.IsForeign default
    · obtain ⟨t, ht, hkept⟩ := exists_holds_visit_foreign origins script hforeign hs
      rw [Application.answers, List.filter_cons_of_neg (by simpa using hforeign),
        List.filter_cons_of_neg (by simpa using hforeign)]
      exact ih ht hs' (hkept.symm.trans hagree)
    · obtain ⟨hvalue, t, t', ht, ht', hafter⟩ := visit_eq origins script hforeign hs hs' hagree
      rw [Application.answers, List.filter_cons_of_pos (by simpa using hforeign),
        List.filter_cons_of_pos (by simpa using hforeign), Application.answers, hvalue, ih ht ht' hafter]

end Visits

/-- **The two forms agree, and contexts are kept apart.** An application whose default context is a plain name handles
both forms of a request for it alike, whatever its registry is: they are the same program over the table. Requests under
a context whose segment is read as another name are foreign, and requests in the short form are not. From any table,
with any failures, the answers to the requests that are not foreign are those without the foreign ones. -/
theorem forms_agree (name : PlainName) (origins : List String) :
    (∀ (registry : Catalog.Registry) (method rest : String) (headers : List (String × String)) (body : Bytes),
      (⟨⟨registry, name.text⟩, origins⟩ : Application).handle ⟨method, longForm name.text rest, headers, body⟩ =
        (⟨⟨registry, name.text⟩, origins⟩ : Application).handle ⟨method, shortForm rest, headers, body⟩) ∧
    (∀ (method rest : String) (headers : List (String × String)) (body : Bytes),
      ¬(⟨method, shortForm rest, headers, body⟩ : Request).IsForeign name.text) ∧
    (∀ (method segment rest : String) (headers : List (String × String)) (body : Bytes),
      (∀ c ∈ segment.toList, IsWritten c) → (∀ c ∈ rest.toList.head?, ¬IsWritten c) →
      decodeSegment segment.toList ≠ name.text →
      (⟨method, "/v1/contexts/" ++ segment ++ rest, headers, body⟩ : Request).IsForeign name.text) ∧
    ∀ (store : Store) (s : Contents), store.Holds s → ∀ requests : List (Request × Script),
      ((Application.standard name.text origins).answers requests store).filter
          (fun answer => ¬answer.1.IsForeign name.text) =
        (Application.standard name.text origins).answers
          (requests.filter fun request => ¬request.1.IsForeign name.text) store :=
  ⟨fun _ _ _ _ _ => handle_longForm rfl _ _ _ _, fun _ _ _ _ => not_isForeign_shortForm _ _ _ _ _,
    fun _ _ _ _ _ hsegment hrest hne => isForeign_of_target hsegment hrest rfl hne,
    fun _ _ hs requests => answers_filter origins requests hs hs fun _ _ => rfl⟩

namespace Sample

/-- The default context. -/
def tenant : PlainName := ⟨"tenant", by decide, by decide⟩

/-- A schema is described in another context. -/
def intrusion : Request :=
  ⟨"PUT", "/v1/contexts/" ++ "other" ++ "/schemas?id=orders&name=Orders&description=Order+events&type=avro", [], []⟩

/-- The same schema is asked for in the default context. -/
def inquiry : Request := ⟨"GET", shortForm "/orders/versions", [], []⟩

end Sample

/-- A schema of another context makes no difference to one of the same label in the default context. -/
theorem forms_agree_tenant :
    (Application.standard "tenant" ["*"]).handle ⟨"GET", longForm "tenant" "/orders/versions", [], []⟩ =
        (Application.standard "tenant" ["*"]).handle Sample.inquiry ∧
      ((Application.standard "tenant" ["*"]).answers [(Sample.intrusion, []), (Sample.inquiry, [])]
          (.memory .empty)).filter (fun answer => ¬answer.1.IsForeign "tenant") =
        (Application.standard "tenant" ["*"]).answers [(Sample.inquiry, [])] (.memory .empty) := by
  obtain ⟨hforms, hshort, hcontexts, hanswers⟩ := forms_agree Sample.tenant ["*"]
  have hplain : IsPlainWord "other" := by decide
  have hintrusion : Sample.intrusion.IsForeign Sample.tenant.text :=
    hcontexts "PUT" "other" "/schemas?id=orders&name=Orders&description=Order+events&type=avro" [] []
      (fun _ => hplain.isWritten) (by simp [IsWritten])
      (by rw [hplain.decodeSegment_eq]; decide)
  have hinquiry : ¬Sample.inquiry.IsForeign Sample.tenant.text := hshort "GET" "/orders/versions" [] []
  refine ⟨hforms .standard "GET" "/orders/versions" [] [], ?_⟩
  have hleft := hanswers (.memory .empty) .empty Store.IsNew.memory.holds
    [(Sample.intrusion, []), (Sample.inquiry, [])]
  rw [List.filter_cons_of_neg (by simpa using hintrusion), List.filter_cons_of_pos (by simpa using hinquiry)] at hleft
  exact hleft

end Schemata.Http

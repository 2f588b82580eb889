import Schemata.Proofs.Bytes.Base64
import Schemata.Proofs.Http.Responses
import Schemata.Proofs.Service.Replies
import Schemata.Proofs.Text.Integer

/-!
# Versions over HTTP

A request to fetch or to delete leads to its route, the service's envelope becomes the response, and the table is left
as the service leaves it (`exists_settled`). So where a ledger tracks the contents, the responses mirror the ledger
(`Mirrors`, `mirrors_of_tracks`): every version of an account is listed, and each listed version can be fetched with its
content and deleted (`versions_over_http`). A segment that names no version is refused before the table is asked.
-/

namespace Schemata.Http

open Catalog (Account Failure Identity Ledger Missing Work afterRequests)
open Json (Value)
open Service (Envelope)
open Table (Contents Outcome Program Store)

/-! ## Exchanges -/

/-- What a request comes to on a table. -/
def Application.exchange (app : Application) (request : Request) (store : Store) : Outcome Store Response :=
  (app.handle request).run Store.backend store

/-- The response has the status of an envelope and is its JSON document. -/
structure Response.Tells (response : Response) (envelope : Envelope) : Prop where
  status : response.status = envelope.status
  contentType : response.contentType = "application/json"
  body : response.body = .json (.object envelope.fields)

section Exchange

variable (app : Application) {request : Request} {route : Route} {store : Store} {s : Contents}

/-- The methods to fetch and to delete are none of those that are treated apart. -/
theorem ne_of_method {method : String} (h : method = "GET" ∨ method = "DELETE") :
    method ≠ "OPTIONS" ∧ method ≠ "POST" ∧ method ≠ "HEAD" := by
  rcases h with rfl | rfl <;> decide

/-- What a fetch or a deletion by its route comes to. -/
theorem exchange_of_route (hmethod : request.method = "GET" ∨ request.method = "DELETE")
    (hroute : Route.ofSegments? (Target.ofText request.target).segments = some route)
    (htakes : request.method ∈ route.methods) :
    app.exchange request store =
      ⟨app.withOrigins request (settled ((app.workOf request route).run.run Store.backend store).value),
        ((app.workOf request route).run.run Store.backend store).state,
        ((app.workOf request route).run.run Store.backend store).log ++
          unforeseen ((app.workOf request route).run.run Store.backend store).value⟩ := by
  obtain ⟨hoptions, hpost, hhead⟩ := ne_of_method hmethod
  rw [Application.exchange, run_handle_of_reaches hoptions ⟨hroute, htakes, fun h => hpost h.1⟩, Application.sent,
    if_neg hhead]

/-- **What a fetch or a deletion comes to**: an end of the service's work, settled. -/
theorem exists_settled (hmethod : request.method = "GET" ∨ request.method = "DELETE")
    (hroute : Route.ofSegments? (Target.ofText request.target).segments = some route)
    (htakes : request.method ∈ route.methods) (hholds : store.Holds s) :
    ∃ r t, (app.workOf request route).Ends Table.Calm s r t ∧
      (app.exchange request store).value = app.withOrigins request (settled r) ∧
      (app.exchange request store).state.Holds t := by
  obtain ⟨t, ht, hends⟩ := Work.ends_run_calm Store.represents (app.workOf request route) hholds
  rw [exchange_of_route app hmethod hroute htakes]
  exact ⟨_, t, hends, rfl, ht⟩

/-- A request that leads nowhere is told so, and the table is not asked. -/
theorem exchange_of_no_route (hmethod : request.method = "GET" ∨ request.method = "DELETE")
    (hroute : Route.ofSegments? (Target.ofText request.target).segments = none) :
    app.exchange request store = ⟨app.withOrigins request .notFound, store, []⟩ := by
  obtain ⟨hoptions, -, hhead⟩ := ne_of_method hmethod
  rw [Application.exchange, handle_eq hoptions]
  unfold Application.answer Application.sent
  simp only [hroute, hhead, ↓reduceIte]
  rfl

end Exchange

/-! ## Segments that name versions -/

theorem mem_methods_version {context : Option String} {label number method : String}
    (h : method = "GET" ∨ method = "DELETE") : method ∈ (Route.version context label number).methods := by
  rcases h with rfl | rfl <;> simp [Route.methods]

theorem isPlain_of_mem_decimalDigits {n : Nat} {c : Char} (h : c ∈ Text.decimalDigits n) : isPlain c = true := by
  have hplain : ∀ d < 10, isPlain (Text.digitOf d) = true := by decide
  obtain ⟨d, hd, rfl⟩ := Text.exists_of_mem_decimalDigits h
  exact hplain d hd

theorem isPlainWord_ofInt (n : Int) : IsPlainWord (Text.ofInt n) := by
  rw [IsPlainWord, Text.ofInt, String.toList_ofList, List.all_eq_true]
  intro c hc
  cases n with
  | ofNat n => exact isPlain_of_mem_decimalDigits hc
  | negSucc n =>
    rcases List.mem_cons.1 hc with rfl | hc
    · rfl
    · exact isPlain_of_mem_decimalDigits hc

theorem ofInt_ne_empty (n : Int) : Text.ofInt n ≠ "" := by
  have hne : Text.decimalInt n ≠ [] := by
    cases n with
    | ofNat n => exact Text.decimalDigits_ne_nil n
    | negSucc n => exact List.cons_ne_nil _ _
  intro h
  exact hne (by simpa [Text.ofInt] using congrArg String.toList h)

/-- A number in the range of versions is named by its decimal digits. -/
theorem versionOfSegment_ofInt {n : Int} (hone : 1 ≤ n) (hn : n < 2 ^ 63) :
    versionOfSegment (Text.ofInt n) = some n := by
  obtain ⟨m, rfl⟩ := Int.eq_ofNat_of_zero_le (Int.le_trans (by decide) hone)
  have hm : m < 2 ^ 63 := by exact_mod_cast hn
  have hdigits : m < 10 ^ Text.maxDigits := by
    refine Nat.lt_of_lt_of_le hm ?_
    calc 2 ^ 63 ≤ 10 ^ 19 := by decide
      _ ≤ 10 ^ Text.maxDigits := Nat.pow_le_pow_right (by decide) (by decide)
  have hread : Text.integer? (Text.ofInt (m : Int)) = some (m : Int) := Text.integer?_ofNat hdigits
  rw [versionOfSegment, hread]
  exact if_pos ⟨by omega, hn⟩

theorem versionOfSegment_eq_none {segment : String}
    (h : ¬∃ n, Text.integer? segment = some n ∧ 1 ≤ n ∧ n < 2 ^ 63) : versionOfSegment segment = none := by
  unfold versionOfSegment
  split
  · rename_i n hn
    exact if_neg fun hrange => h ⟨n, hn, by omega, hrange.2⟩
  · rfl

/-- The path of a version with its number in decimal leads to it. -/
theorem route_version_ofInt (address : Address) (n : Int) :
    Route.ofSegments? (Target.ofText (address.version (Text.decimalInt n))).segments =
      some (.version address.routeContext address.label.text (Text.ofInt n)) := by
  have hplain := isPlainWord_ofInt n
  have htext : (Text.ofInt n).toList = Text.decimalInt n := String.toList_ofList
  have hdecode := hplain.decodeSegment_eq
  rw [← htext, address.route_version fun c => hplain.isWritten, hdecode, if_pos (hplain.isName (ofInt_ne_empty n))]

/-! ## What is told of an account -/

/-- The identity at an address, with the default context. -/
def Address.identity (address : Address) (context : String) : Identity :=
  ⟨address.routeContext.getD context, address.label.text⟩

theorem Address.identity_eq (address : Address) (context : String) :
    (Service.standard context).identity address.routeContext (some address.label.text) = address.identity context := by
  unfold Service.identity Service.orElse Address.identity Address.routeContext
  cases address.context with
  | none => rfl
  | some name =>
    have hne : name.text.isEmpty = false := by simpa using name.nonempty
    simp [hne]

/-- The fields of an entry tell a version of an account: its number, all numbers, the highest of them, and its
content. -/
structure TellsVersion (fields : Json.Fields) (a : Account) (n : Int) (content : Bytes) : Prop where
  version : Json.field? "version" fields = some (.int n)
  versions : Json.field? "versions" fields = some (.array (a.numbers.map .int))
  current : ∃ highest ∈ a.numbers, (∀ m ∈ a.numbers, m ≤ highest) ∧ Json.field? "current" fields = some (.int highest)
  specification : ∃ text, Json.field? "specification" fields = some (.string text) ∧
    Bytes.ofBase64? text = some content

theorem finite_ints (numbers : List Int) : (Value.array (numbers.map .int)).finite = .array (numbers.map .int) := by
  rw [Value.finite, Json.finiteElements_eq_map, List.map_map]
  rfl

/-- The entry of an account holds no number without a form in JSON. -/
theorem finite_entry (a : Account) (i : Identity) (version : Catalog.Version) :
    (Value.object (a.entry i version).fields).finite = .object (a.entry i version).fields := by
  rw [Value.finite, Catalog.Entry.fields]
  simp only [Json.finiteFields, finite_ints]
  rfl

theorem tellsVersion_entry {a : Account} {i : Identity} {n : Int} {content : Bytes} (hn : 0 ≤ n)
    (hcontent : a.content? n = some content) : TellsVersion (a.entry i ⟨n.toNat, content⟩).fields a n content where
  version := congrArg (fun m => some (Value.int m)) (Int.toNat_of_nonneg hn)
  versions :=
    congrArg (fun numbers : List Int => some (Value.array (numbers.map Value.int)))
      (Catalog.ascending_of_pairwise a.pairwise_numbers)
  current := by
    have hmem : n ∈ a.numbers := Account.mem_numbers.2 ⟨content, hcontent⟩
    cases hmax : a.numbers.max? with
    | none =>
      rw [List.max?_eq_none_iff.1 hmax] at hmem
      cases hmem
    | some highest =>
      obtain ⟨hhighest, hall⟩ := List.max?_eq_some_iff.1 hmax
      exact ⟨highest, hhighest, hall, congrArg (fun m : Option Int => some (Value.int (m.getD n.toNat))) hmax⟩
  specification := ⟨_, rfl, Bytes.ofBase64?_base64 content⟩

/-! ## Responses that mirror a ledger -/

/-- The responses to requests that fetch tell the accounts of a ledger: every account's list of numbers; each version
whose number a path can name; and of the other numbers that there is no such version. -/
structure Mirrors (context : String) (origins : List String) (store : Store) (l : Ledger) : Prop where
  listed : ∀ (address : Address) (a : Account), l (address.identity context) = some a →
    ∀ request : Request, request.method = "GET" → request.target = address.listing →
      ((Application.standard context origins).exchange request store).value.Tells
        (.success "Success" (a.numbers.map .int))
  told : ∀ (address : Address) (a : Account), l (address.identity context) = some a →
    ∀ (n : Int) (content : Bytes), a.content? n = some content → n < 2 ^ 63 →
      ∀ request : Request, request.method = "GET" → request.target = address.version (Text.decimalInt n) →
        ∃ fields, TellsVersion fields a n content ∧
          ((Application.standard context origins).exchange request store).value.Tells
            (.success "Success" [.object fields])
  missing : ∀ (address : Address) (a : Account), l (address.identity context) = some a →
    ∀ n : Int, a.content? n = none → 1 ≤ n → n < 2 ^ 63 →
      ∀ request : Request, request.method = "GET" → request.target = address.version (Text.decimalInt n) →
        ((Application.standard context origins).exchange request store).value.Tells
          (.notFound (Missing.version (address.identity context) n).message)

section Tracks

variable {context : String} {origins : List String} {store : Store} {l : Ledger} {s : Contents} {a : Account}
  {address : Address} {n : Int} {content : Bytes} {request : Request}

theorem one_le_of_content? {i : Identity} (hl : l.Tracks s) (ha : l i = some a)
    (hcontent : a.content? n = some content) : 1 ≤ n := by
  rw [← (hl.shows i a ha).content?_eq hl.orderly] at hcontent
  obtain ⟨m, rfl, hm, -, -⟩ := hl.orderly.number_of_row? hcontent
  omega

/-- An envelope whose values JSON has forms for is told as it is. -/
theorem tells_ofEnvelope {app : Application} {envelope : Envelope}
    (h : envelope.values.map Value.finite = envelope.values) :
    (app.withOrigins request (.ofEnvelope envelope)).Tells envelope where
  status := rfl
  contentType := rfl
  body := by
    have hsame : ({ envelope with values := envelope.values.map Value.finite } : Envelope) = envelope := by rw [h]
    exact congrArg (fun e : Envelope => Body.json (.object e.fields)) hsame

/-- What a fetch or a deletion of a version that a path can name comes to: an end of the service's work on it. -/
theorem exists_served_version (context : String) (origins : List String) (hholds : store.Holds s) (hone : 1 ≤ n)
    (hn : n < 2 ^ 63) (hmethod : request.method = "GET" ∨ request.method = "DELETE")
    (htarget : request.target = address.version (Text.decimalInt n)) :
    ∃ r t, (if request.method = "DELETE" then
        (Service.standard context).eraseVersion address.routeContext (some address.label.text) n
        else (Service.standard context).entry address.routeContext (some address.label.text) (some n)).Ends
          Table.Calm s r t ∧
      ((Application.standard context origins).exchange request store).value =
        (Application.standard context origins).withOrigins request (settled (r.map Response.ofEnvelope)) ∧
      ((Application.standard context origins).exchange request store).state.Holds t := by
  obtain ⟨r, t, hserve, hvalue, ht⟩ := exists_settled (.standard context origins) hmethod
    (htarget ▸ route_version_ofInt address n) (mem_methods_version hmethod) hholds
  obtain ⟨r', hversion, rfl⟩ := (Work.ends_bind_pure (by intros; exact Work.ends_pure)).1 hserve
  unfold Application.withVersion at hversion
  rw [versionOfSegment_ofInt hone hn] at hversion
  exact ⟨r', t, hversion, hvalue, ht⟩

variable (hl : l.Tracks s) (hholds : store.Holds s) (ha : l (address.identity context) = some a)
include hl hholds ha

theorem tells_listing (hmethod : request.method = "GET") (htarget : request.target = address.listing) :
    ((Application.standard context origins).exchange request store).value.Tells
      (.success "Success" (a.numbers.map .int)) := by
  have htakes : request.method ∈ (Route.versions address.routeContext address.label.text).methods := by
    simp [hmethod, Route.methods]
  obtain ⟨r, t, hserve, hvalue, -⟩ :=
    exists_settled (.standard context origins) (.inl hmethod) (htarget ▸ address.route_listing) htakes hholds
  obtain ⟨r', hnumbers, rfl⟩ := (Work.ends_bind_pure (by intros; exact Work.ends_pure)).1 hserve
  obtain ⟨rfl, -⟩ := Service.ends_numbers hl (address.identity_eq context) ha hnumbers
  rw [hvalue]
  apply tells_ofEnvelope
  exact (Json.finiteElements_eq_map _).symm.trans (Value.array.inj (finite_ints a.numbers))

theorem tells_version (hcontent : a.content? n = some content) (hn : n < 2 ^ 63) (hmethod : request.method = "GET")
    (htarget : request.target = address.version (Text.decimalInt n)) :
    ∃ fields, TellsVersion fields a n content ∧
      ((Application.standard context origins).exchange request store).value.Tells
        (.success "Success" [.object fields]) := by
  have hone := one_le_of_content? hl ha hcontent
  obtain ⟨r, t, hentry, hvalue, -⟩ := exists_served_version context origins hholds hone hn (.inl hmethod) htarget
  rw [if_neg (by rw [hmethod]; decide)] at hentry
  obtain ⟨rfl, -⟩ := Service.ends_entry hl (address.identity_eq context) ha hcontent hentry
  have hfields := tellsVersion_entry (i := address.identity context) (Int.le_trans (by decide) hone) hcontent
  refine ⟨_, hfields, ?_⟩
  rw [hvalue]
  exact tells_ofEnvelope (congrArg (fun v => [v]) (finite_entry a _ _))

theorem tells_missing (hcontent : a.content? n = none) (hone : 1 ≤ n) (hn : n < 2 ^ 63)
    (hmethod : request.method = "GET") (htarget : request.target = address.version (Text.decimalInt n)) :
    ((Application.standard context origins).exchange request store).value.Tells
      (.notFound (Missing.version (address.identity context) n).message) := by
  obtain ⟨r, t, hentry, hvalue, -⟩ := exists_served_version context origins hholds hone hn (.inl hmethod) htarget
  rw [if_neg (by rw [hmethod]; decide)] at hentry
  have hwritable : Text.isWritable n = true := Text.isWritable_of_le (by omega)
  obtain ⟨rfl, -⟩ := Service.ends_entry_missing hl (address.identity_eq context) ha hcontent hwritable hentry
  rw [hvalue]
  exact tells_ofEnvelope rfl

/-- **A version that is deleted** is told so, and the ledger without it tracks what is left. -/
theorem tells_deletion (hcontent : a.content? n = some content) (hn : n < 2 ^ 63) (hmethod : request.method = "DELETE")
    (htarget : request.target = address.version (Text.decimalInt n)) :
    ((Application.standard context origins).exchange request store).value.Tells
        (.success ("Successfully deleted version '" ++ Text.ofInt n ++ "' of schema " ++
          (address.identity context).text)) ∧
      ∃ t, ((Application.standard context origins).exchange request store).state.Holds t ∧
        (l.set (address.identity context) (some (a.without n))).Tracks t := by
  have hone := one_le_of_content? hl ha hcontent
  obtain ⟨r, t, herase, hvalue, ht⟩ := exists_served_version context origins hholds hone hn (.inr hmethod) htarget
  rw [if_pos hmethod] at herase
  obtain ⟨rfl, htracks⟩ := Service.ends_eraseVersion hl (address.identity_eq context) ha hcontent herase
  refine ⟨?_, t, ht, htracks⟩
  rw [hvalue]
  exact tells_ofEnvelope rfl

omit ha

/-- **Where a ledger tracks the contents, the responses mirror it.** -/
theorem mirrors_of_tracks : Mirrors context origins store l where
  listed _ _ ha _ hmethod htarget := tells_listing hl hholds ha hmethod htarget
  told _ _ ha _ _ hcontent hn _ hmethod htarget := tells_version hl hholds ha hcontent hn hmethod htarget
  missing _ _ ha _ hcontent hone hn _ hmethod htarget := tells_missing hl hholds ha hcontent hone hn hmethod htarget

end Tracks

/-! ## Segments that name no version -/

section Refused

variable {address : Address} {number : List Char} {request : Request} (context : String) (origins : List String)
  (store : Store)

/-- **A segment that is no number of a version is refused**, and the table is not asked. -/
theorem exchange_of_no_version (hwritten : ∀ c ∈ number, IsWritten c)
    (hname : Route.isName (decodeSegment number) = true)
    (hnone : versionOfSegment (decodeSegment number) = none)
    (hmethod : request.method = "GET" ∨ request.method = "DELETE") (htarget : request.target = address.version number) :
    (Application.standard context origins).exchange request store =
      ⟨(Application.standard context origins).withOrigins request
        (.ofEnvelope (.error ("Invalid schema version '" ++ decodeSegment number ++ "'."))), store, []⟩ := by
  have hroute := address.route_version hwritten
  rw [if_pos hname, ← htarget] at hroute
  rw [exchange_of_route _ hmethod hroute (mem_methods_version hmethod), Application.workOf]
  simp only [Application.serve, Application.withVersion, hnone]
  rfl

/-- A segment that is empty or holds a brace leads nowhere, and the table is not asked. -/
theorem exchange_of_no_name (hwritten : ∀ c ∈ number, IsWritten c) (hname : Route.isName (decodeSegment number) = false)
    (hmethod : request.method = "GET" ∨ request.method = "DELETE") (htarget : request.target = address.version number) :
    (Application.standard context origins).exchange request store =
      ⟨(Application.standard context origins).withOrigins request .notFound, store, []⟩ := by
  have hroute := address.route_version hwritten
  rw [if_neg (by simp [hname]), ← htarget] at hroute
  exact exchange_of_no_route _ hmethod hroute

end Refused

/-- **Every listed version can be fetched and deleted.** After any requests to a new table without failures, the
responses mirror the ledger after the requests: each account's numbers are listed in ascending order, and each version
below `2 ^ 63` is told with its number, the list, the highest number, and the content that was appended under it. Its
deletion is a success, after which the responses mirror the same ledger without this version alone. A segment that is no
integer from one to below `2 ^ 63` leaves any table as it is: it is answered with status 500 where it can name something
at all, and leads nowhere where it is empty or holds a brace. -/
theorem versions_over_http {store : Store} (hnew : store.IsNew) (requests : List Catalog.Request) (context : String)
    (origins : List String) :
    Mirrors context origins (afterRequests requests store) (Ledger.empty.after requests) ∧
    (∀ (address : Address) (a : Account), Ledger.empty.after requests (address.identity context) = some a →
      a.numbers.Pairwise (· < ·) ∧ (∀ n, n ∈ a.numbers ↔ ∃ content, a.content? n = some content) ∧
      ∀ n ∈ a.numbers, n < 2 ^ 63 →
        (a.without n).numbers = a.numbers.filter (· ≠ n) ∧ (∀ m, m ≠ n → (a.without n).content? m = a.content? m) ∧
        ∀ request : Request, request.method = "DELETE" → request.target = address.version (Text.decimalInt n) →
          ((Application.standard context origins).exchange request (afterRequests requests store)).value.status = 200 ∧
          Mirrors context origins
            ((Application.standard context origins).exchange request (afterRequests requests store)).state
            ((Ledger.empty.after requests).set (address.identity context) (some (a.without n)))) ∧
    ∀ (table : Store) (address : Address) (number : List Char) (request : Request), (∀ c ∈ number, IsWritten c) →
      request.method = "GET" ∨ request.method = "DELETE" → request.target = address.version number →
      (¬∃ n, Text.integer? (decodeSegment number) = some n ∧ 1 ≤ n ∧ n < 2 ^ 63) →
      ((Application.standard context origins).exchange request table).state = table ∧
      (Route.isName (decodeSegment number) = true →
        ((Application.standard context origins).exchange request table).value.Tells
          (.error ("Invalid schema version '" ++ decodeSegment number ++ "'."))) ∧
      (Route.isName (decodeSegment number) = false →
        ((Application.standard context origins).exchange request table).value.status = 404) := by
  obtain ⟨s, hholds, htracks⟩ := Ledger.Tracks.empty.after hnew.holds requests
  refine ⟨mirrors_of_tracks htracks hholds, fun address a ha => ?_, ?_⟩
  · refine ⟨a.pairwise_numbers, fun n => Account.mem_numbers, fun n hmem hn => ?_⟩
    obtain ⟨content, hcontent⟩ := Account.mem_numbers.1 hmem
    have hzero : 0 ≤ n := Int.le_trans (by decide) (one_le_of_content? htracks ha hcontent)
    refine ⟨Account.numbers_without hzero, fun m hm => ?_, fun request hmethod htarget => ?_⟩
    · rw [Account.content?_without hzero, if_neg hm]
    · obtain ⟨htells, t, ht, hafter⟩ := tells_deletion htracks hholds ha hcontent hn hmethod htarget
      exact ⟨htells.status, mirrors_of_tracks hafter ht⟩
  · intro table address number request hwritten hmethod htarget hnumber
    have hnone := versionOfSegment_eq_none hnumber
    cases hname : Route.isName (decodeSegment number) with
    | true =>
      rw [exchange_of_no_version context origins table hwritten hname hnone hmethod htarget]
      exact ⟨rfl, fun _ => tells_ofEnvelope rfl, nofun⟩
    | false =>
      rw [exchange_of_no_name context origins table hwritten hname hmethod htarget]
      exact ⟨rfl, nofun, fun _ => rfl⟩

namespace Sample

/-- Two contents; a third one came and went between them. -/
def stocked : List Catalog.Request := Catalog.Sample.requests.take 6

/-- The table after that. -/
def stock : Store := afterRequests stocked (.memory .empty)

/-- The application that is asked. -/
def app : Application := .standard "" ["*"]

/-- The list of versions is asked for. -/
def listing : Request := ⟨"GET", orders.listing, [], []⟩

/-- A version is asked for. -/
def fetch (number : List Char) : Request := ⟨"GET", orders.version number, [], []⟩

/-- The first version is to be deleted. -/
def deletion : Request := ⟨"DELETE", orders.version (Text.decimalInt 1), [], []⟩

theorem exists_account_stocked :
    ∃ a, Ledger.empty.after stocked (orders.identity "") = some a ∧ a.numbers = [1, 3] := by
  have hnumbers : (Ledger.empty.after stocked (orders.identity "")).map Account.numbers = some [1, 3] := by
    decide +kernel
  exact Option.map_eq_some_iff.1 hnumbers

end Sample

/-- Of two versions the first one is deleted, and the second one alone is listed and told from then on. A word names
none. -/
theorem versions_over_http_stocked :
    (Sample.app.exchange Sample.listing Sample.stock).value.Tells (.success "Success" [.int 1, .int 3]) ∧
      (Sample.app.exchange Sample.deletion Sample.stock).value.status = 200 ∧
      (Sample.app.exchange Sample.listing (Sample.app.exchange Sample.deletion Sample.stock).state).value.Tells
        (.success "Success" [.int 3]) ∧
      (∃ fields, Json.field? "version" fields = some (.int 3) ∧
        (Sample.app.exchange (Sample.fetch (Text.decimalInt 3))
          (Sample.app.exchange Sample.deletion Sample.stock).state).value.Tells (.success "Success" [.object fields])) ∧
      (Sample.app.exchange (Sample.fetch ['x']) Sample.stock).value.Tells (.error "Invalid schema version 'x'.") := by
  obtain ⟨hmirrors, hdeleted, hrefused⟩ := versions_over_http .memory Sample.stocked "" ["*"]
  obtain ⟨a, ha, hnumbers⟩ := Sample.exists_account_stocked
  obtain ⟨-, hmem, hversion⟩ := hdeleted Sample.orders a ha
  obtain ⟨hleft, hothers, hdelete⟩ := hversion 1 (hnumbers ▸ by decide) (by decide)
  obtain ⟨hstatus, hafter⟩ := hdelete Sample.deletion rfl rfl
  have ha' : (Ledger.empty.after Sample.stocked).set (Sample.orders.identity "") (some (a.without 1))
      (Sample.orders.identity "") = some (a.without 1) := if_pos rfl
  have hlisted := hmirrors.listed Sample.orders a ha Sample.listing rfl rfl
  rw [hnumbers] at hlisted
  have hremaining := hafter.listed Sample.orders _ ha' Sample.listing rfl rfl
  rw [hleft, hnumbers] at hremaining
  obtain ⟨content, hcontent⟩ := (hmem 3).1 (hnumbers ▸ by decide)
  rw [← hothers 3 (by decide)] at hcontent
  obtain ⟨fields, htells, hfetched⟩ := hafter.told Sample.orders _ ha' 3 content hcontent (by decide)
    (Sample.fetch (Text.decimalInt 3)) rfl rfl
  have hplain : IsPlainWord "x" := by decide
  have hword : decodeSegment ['x'] = "x" := hplain.decodeSegment_eq
  have hread : Text.integer? "x" = none := by decide
  have hnone : ¬∃ n, Text.integer? (decodeSegment ['x']) = some n ∧ 1 ≤ n ∧ n < 2 ^ 63 := by
    rw [hword, hread]
    rintro ⟨n, ⟨⟩, -⟩
  have hrefusal := (hrefused Sample.stock Sample.orders ['x'] (Sample.fetch ['x']) (fun _ => hplain.isWritten)
    (.inl rfl) rfl hnone).2.1
  rw [hword] at hrefusal
  exact ⟨hlisted, hstatus, hremaining, ⟨fields, htells.version, hfetched⟩,
    hrefusal (hplain.isName (by decide))⟩

namespace Sample

/-- A segment that is an opening brace. -/
def brace : List Char := ['%', '7', 'B']

theorem isWritten_brace : ∀ c ∈ brace, IsWritten c := by
  simp [brace, IsWritten]

theorem decodeSegment_brace : decodeSegment brace = "\x7b" := by
  have hdigits : hexNumber? ['7', 'B'] = some 0x7b := by decide
  have hescape : withEscape [] [] ('7', 'B') = (['\x7b'], []) := by decide
  have hread : decodeOnto [] [] brace = ['\x7b'] := by
    rw [brace, decodeOnto, hdigits]
    simp only
    rw [hescape, decodeOnto]
    rfl
  rw [decodeSegment, hread]
  rfl

end Sample

/-- **Not every segment that is no integer is answered with status 500**: a brace leads nowhere. -/
theorem not_versions_over_http : ¬∀ (table : Store) (address : Address) (number : List Char) (request : Request),
    (∀ c ∈ number, IsWritten c) → request.method = "GET" → request.target = address.version number →
    (¬∃ n, Text.integer? (decodeSegment number) = some n ∧ 1 ≤ n ∧ n < 2 ^ 63) →
    ((Application.standard "" []).exchange request table).value.status = 500 := by
  intro h
  have hnone : Text.integer? "\x7b" = none := by decide
  have hstatus := h (.memory .empty) Sample.orders Sample.brace (Sample.fetch Sample.brace) Sample.isWritten_brace rfl
    rfl (by rw [Sample.decodeSegment_brace, hnone]; rintro ⟨n, ⟨⟩, -⟩)
  have hname : Route.isName (decodeSegment Sample.brace) = false := by
    rw [Sample.decodeSegment_brace, Route.isName, String.any, String.contains_bool_eq]
    rfl
  rw [exchange_of_no_name "" [] _ Sample.isWritten_brace hname (.inl rfl) rfl] at hstatus
  cases hstatus

end Schemata.Http

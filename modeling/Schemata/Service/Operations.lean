import Schemata.Catalog.Registry
import Schemata.Service.Envelope

/-!
# The service

Each operation of a registry as it is offered to the outside: inputs may be missing, and the outcome is an envelope.
What is missing comes back with status 404, what is refused or failed with status 500, and each of these is noted
once (`enveloped`). A failure that was not foreseen, or that could not be put into words, is passed on.
-/

namespace Schemata

open Catalog (Work Failure Identity Registry FormatRequest)

/-- A registry that is offered to the outside. -/
structure Service where
  registry : Registry
  /-- The context of requests that name none. -/
  defaultContext : String

namespace Service

/-- A text, or a fallback where it is missing or empty. -/
def orElse (fallback : String) (text : Option String) : String :=
  let given := text.getD ""
  if given.isEmpty then fallback else given

/-- The identity that a request names. -/
def identity (service : Service) (context label : Option String) : Identity :=
  ⟨orElse service.defaultContext context, label.getD ""⟩

/-- Notes an outcome that is no success. -/
def noteFailure (level : Log.Level) (operation verb : String) (identity : Identity) (report : Report) : Work Unit :=
  Work.note (.plain .service level (operation ++ " " ++ verb ++ ": " ++ report.message)
    [("schema_id", .string identity.text), ("error_code", .string report.code)])

/-- Does a work and tells its failure in an envelope. -/
def enveloped (operation : String) (identity : Identity) (work : Work Envelope) : Work Envelope :=
  tryCatchThe Failure work fun failure =>
    match failure, failure.report? with
    | .missing _, some report => do
      noteFailure .warning operation "failed" identity report
      return .notFound report.message
    | .invalid _, some report => do
      noteFailure .warning operation "rejected" identity report
      return .error report.message
    | .registry _ _ _, some report => do
      noteFailure .error operation "failed" identity report
      return .error report.message
    | _, _ => throw failure

/-! ## Operations -/

/-- Describes a schema, for the first time or anew. -/
def describe (service : Service) (context label name description format : Option String) : Work Envelope :=
  let identity := service.identity context label
  enveloped "create" identity do
    service.registry.describe ⟨identity, name.getD "", description.getD "", FormatRequest.ofLabel format⟩
    return .success ("Successfully created schema entry with id '" ++ identity.label ++ "', name '"
      ++ name.getD "None" ++ "'")

/-- Appends a content as the next version. -/
def append (service : Service) (context label : Option String) (content : Option Bytes) : Work Envelope :=
  let identity := service.identity context label
  enveloped "add" identity do
    let number ← service.registry.append identity content
    return .success "Success" [.object (Catalog.uploadFields identity number)]

/-- Erases a schema with all its versions. -/
def erase (service : Service) (context label : Option String) : Work Envelope :=
  let identity := service.identity context label
  enveloped "delete" identity do
    if ← service.registry.contains identity then
      service.registry.erase identity
      return .success ("Successfully deleted schema " ++ identity.text)
    else return .notFound ("Id " ++ identity.text ++ " not found.")

/-- Erases one version. -/
def eraseVersion (service : Service) (context label : Option String) (number : Int) : Work Envelope :=
  let identity := service.identity context label
  enveloped "delete version" identity do
    service.registry.eraseVersion identity number
    return .success ("Successfully deleted version '" ++ Text.ofInt number ++ "' of schema " ++ identity.text)

/-- Reads the entry at a version, or at the current one. -/
def entry (service : Service) (context label : Option String) (number : Option Int) : Work Envelope :=
  let identity := service.identity context label
  enveloped "get" identity do
    let entry ← service.registry.entry identity number
    return .success "Success" [.object entry.fields]

/-- Lists the versions in ascending order. -/
def numbers (service : Service) (context label : Option String) : Work Envelope :=
  let identity := service.identity context label
  enveloped "list versions" identity do
    let numbers ← service.registry.numbers identity
    return .success "Success" ((Catalog.ascending numbers).map .int)

end Service

end Schemata

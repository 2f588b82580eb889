import Schemata.Json.Text
import Schemata.Query.Select
import Schemata.Text.Quoted

/-!
# Reports of errors

Whoever meets an error is told about it in words, with a code for programs and with details, named values whose names
depend on the code.
-/

namespace Schemata

/-- An error as it is told. -/
structure Report where
  message : String
  code : String
  details : Json.Fields

namespace Report

open Json (Value)

/-- An error of no special kind. An empty code stands for none. -/
def general (message : String) (code : Option String) (details : Json.Fields) : Report :=
  ⟨message, if (code.getD "").isEmpty then "SCHEMASTORE_ERROR" else code.getD "", details⟩

/-- A refused input, with the field that is at fault. -/
def validation (message : String) (field : Option String) : Report :=
  ⟨message, "VALIDATION_ERROR", [("field", Value.ofText? field)]⟩

/-- Something that does not exist. -/
def notFound (message : String) (identity : Option String) (version : Option Int) : Report :=
  ⟨message, "SCHEMA_NOT_FOUND", [("schema_id", Value.ofText? identity), ("version", Value.ofInt? version)]⟩

/-- How the failure of a table is shown as a cause. -/
def storageCause (message : String) : String := "StorageError(" ++ Text.quoted message ++ ")"

/-- An operation that a table's failure ended, with the words of that failure. -/
def registry (message : String) (cause : Option String) : Report :=
  ⟨message, "REGISTRY_ERROR", [("cause", Value.ofText? (cause.map storageCause))]⟩

/-- A failure of a table. -/
def storage (message : String) : Report := ⟨message, "STORAGE_ERROR", []⟩

/-- A text that is no document, with the place of the fault. -/
def parse (message : String) (position : Option Int) : Report :=
  ⟨message, "PARSE_ERROR", [("position", Value.ofInt? position)]⟩

/-- A path that cannot be used or finds nothing. -/
def path (message : String) (path : Option String) : Report :=
  ⟨message, "PATH_EVALUATION_ERROR", [("path", Value.ofText? path)]⟩

end Report

/-- A text entry point's failure as it is told. An integer that is too long and a container without room are no faults
of the text and have none. -/
def Json.ParseFailure.report? (failure : Json.ParseFailure) : Option Report :=
  match failure with
  | .nothing | .notText _ => some (.parse failure.message none)
  | .malformed _ position => some (.parse failure.message (some position))
  | .tooManyDigits _ | .tooDeep _ => none

/-- A path's failure as it is told. Where no path is at fault there is none. -/
def Query.PathFailure.report? (failure : Query.PathFailure) : Option Report :=
  failure.path?.map fun path => .path failure.message (some path)

/-- The failure of a selection from a text as it is told. -/
def Query.TextFailure.report? : Query.TextFailure → Option Report
  | .unread failure => failure.report?
  | .unselected failure => failure.report?

end Schemata

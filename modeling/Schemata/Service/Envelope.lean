import Schemata.Form

/-!
# Envelopes

Every outcome of the service, good or bad, has one shape: a status, a message, the count of values, and the values. The
count is the length of the values, whatever anyone says (`Envelope.fields`). A status is a number of HTTP; 200 alone
means success.
-/

namespace Schemata.Service

open Json (Value)

/-- An outcome as it is told. -/
structure Envelope where
  status : Int
  message : String
  values : List Value

namespace Envelope

/-- The status of success. -/
def okStatus : Int := 200
/-- The status of something that is missing. -/
def notFoundStatus : Int := 404
/-- The status of any other failure. -/
def errorStatus : Int := 500

/-- A success. -/
def success (message : String := "Success") (values : List Value := []) : Envelope := ⟨okStatus, message, values⟩

/-- Something is missing. -/
def notFound (message : String) : Envelope := ⟨notFoundStatus, message, []⟩

/-- Any other failure. -/
def error (message : String) : Envelope := ⟨errorStatus, message, []⟩

/-- Whether it is a success. -/
def ok (envelope : Envelope) : Bool := envelope.status = okStatus

/-- How many values there are. -/
def count (envelope : Envelope) : Nat := envelope.values.length

/-- The envelope as named values. -/
def fields (envelope : Envelope) : Json.Fields :=
  [("status", .int envelope.status), ("message", .string envelope.message), ("count", .int envelope.count),
    ("values", .array envelope.values)]

/-- The envelope with the given fields; a count that is given has to be a number and is not used. -/
def ofFields (given : Json.Fields) : Except Form.Misfits Envelope :=
  let status := Form.field given "status" okStatus Form.int
  let message := Form.field given "message" "Success" Form.text
  let count := Form.field given "count" 0 Form.int
  let values := Form.field given "values" [] Form.list
  (Form.both (Form.both count message) (Form.both status values)).map fun ((_, message), status, values) =>
    ⟨status, message, values⟩

end Envelope

end Schemata.Service

import Schemata.Bytes.Utf8
import Schemata.Catalog.Format
import Schemata.Catalog.Identity
import Schemata.Json.Reader
import Schemata.Report
import Schemata.Table.Command

/-!
# Failures of the catalogue

An operation ends with a value or with a failure: an input that is refused (`Invalid`), something that does not exist
(`Missing`), an activity that a table's failure ended, a table's failure itself, a row that cannot be read
(`Undecodable`), a number that does not fit, or anything else that was not foreseen.

A failure is put into words when it is raised. If a number in its words is too long to be written, another failure is
raised in its place (`Failure.worded`).
-/

namespace Schemata.Catalog

/-! ## Refused inputs -/

/-- The parts of an identity that go into keys. -/
inductive Part where
  | context
  | label
  deriving DecidableEq, Repr

/-- How a part is called. -/
def Part.name : Part → String
  | .context => "namespace"
  | .label => "id"

/-- The most octets that a part may have in a key. -/
def maxPartSize : Nat := 65535

/-- Why an input is refused. -/
inductive Invalid where
  | noLabel
  | noName
  | noDescription
  | unknownFormat (tag : Option String)
  | noContent
  /-- A part of the identity is too long for a key. -/
  | tooLong (part : Part) (size : Nat)
  | versionOutOfRange (version : Int)
  deriving DecidableEq, Repr

namespace Invalid

/-- The refusal in words. -/
def message : Invalid → String
  | noLabel => "Schema id must be specified."
  | noName => "Schema name must be specified."
  | noDescription => "Schema description must be specified."
  | unknownFormat tag => "Schema type '" ++ Format.shownTag tag ++ "' is invalid."
  | noContent => "Schema content must be provided."
  | tooLong part size =>
    "Schema " ++ part.name ++ " is too long (" ++ Text.ofNat size ++ " bytes, at most " ++ Text.ofNat maxPartSize ++ ")."
  | versionOutOfRange version => "Schema version " ++ Text.ofInt version ++ " is out of range."

/-- The number that the words name, where it may be of any length. -/
def number? : Invalid → Option Int
  | versionOutOfRange version => some version
  | _ => none

/-- The field at fault. -/
def field : Invalid → String
  | noLabel => "id"
  | noName => "name"
  | noDescription => "description"
  | unknownFormat _ => "type"
  | noContent => "content"
  | tooLong part _ => part.name
  | versionOutOfRange _ => "version"

end Invalid

/-! ## What does not exist -/

/-- What was looked for in vain. -/
inductive Missing where
  | schema (identity : Identity)
  /-- Any version of an identity that exists. -/
  | versions (identity : Identity)
  /-- One version of an identity that exists. -/
  | version (identity : Identity) (version : Int)
  deriving DecidableEq, Repr

namespace Missing

/-- The identity that was addressed. -/
def identity : Missing → Identity
  | schema identity | versions identity | version identity _ => identity

/-- The version that was looked for, if one was named. -/
def version? : Missing → Option Int
  | schema _ | versions _ => none
  | version _ v => some v

/-- The failure in words. -/
def message : Missing → String
  | schema identity => "Schema '" ++ identity.text ++ "' does not exist."
  | versions identity => "Schema '" ++ identity.text ++ "' does not have any versions."
  | version identity v => "Schema '" ++ identity.text ++ "' does not have version " ++ Text.ofInt v ++ "."

end Missing

/-! ## Activities -/

/-- What an operation is doing when a table fails. -/
inductive Activity where
  /-- Creating or replacing a descriptor. -/
  | create
  | add
  | read
  | list
  | lookUp
  | remove
  | delete
  deriving DecidableEq, Repr

/-- An activity in words. -/
def Activity.words : Activity → String
  | create => "create"
  | add => "add a version to"
  | read => "read"
  | list => "list versions of"
  | lookUp => "look up"
  | remove => "remove a version of"
  | delete => "delete"

/-! ## Rows that cannot be read -/

/-- Why the octets of a row say nothing. -/
inductive Undecodable where
  /-- A number that has not eight octets. -/
  | notNumber
  | notText (octets : Bytes)
  | notDocument (text : String) (cause : Json.ReadError)
  | noFields (document : Json.Value)
  /-- A document without a field of this name. -/
  | noField (name : String)
  | notTag (value : Json.Value)

/-- The failure in words. -/
def Undecodable.message : Undecodable → String
  | .notNumber => "unpack requires a buffer of 8 bytes"
  | .notText octets => ((Bytes.utf8Fault? octets).map (·.message)).getD ""
  | .notDocument text cause => cause.located text
  | .noFields (.array _) => "list indices must be integers or slices, not str"
  | .noFields (.string _) => "string indices must be integers, not 'str'"
  | .noFields document => "'" ++ document.kindName ++ "' object is not subscriptable"
  | .noField name => Text.quoted name
  | .notTag value => Format.badTag value

/-! ## All failures -/

/-- How an operation fails. -/
inductive Failure where
  | invalid (reason : Invalid)
  | missing (what : Missing)
  /-- A table's failure ended an activity. -/
  | registry (activity : Activity) (identity : Identity) (cause : Table.Trouble)
  | table (trouble : Table.Trouble)
  /-- A number is too great for its row. -/
  | counterOutOfRange
  /-- A number in the words of a failure is too long to be written. -/
  | unwritable
  | undecodable (row : Undecodable)
  | unexpected (message : String)

namespace Failure

/-- The failure in words. -/
def message : Failure → String
  | invalid reason => reason.message
  | missing what => what.message
  | registry activity identity cause =>
    "Failed to " ++ activity.words ++ " schema '" ++ identity.text ++ "': " ++ cause.message
  | table trouble => trouble.message
  | counterOutOfRange => "int too large to convert"
  | unwritable => Text.unwritableMessage
  | undecodable row => row.message
  | unexpected message => message

/-- The number that the words of the failure name, where it may be of any length. -/
def number? : Failure → Option Int
  | invalid reason => reason.number?
  | missing what => what.version?
  | _ => none

/-- What is raised for a failure: the failure itself, if every number in its words may be written. -/
def worded (failure : Failure) : Failure := if failure.number?.all Text.isWritable then failure else unwritable

/-- The failure as it is told; where a row cannot be read, a number does not fit or something was not foreseen, there is
no code. -/
def report? (failure : Failure) : Option Report :=
  match failure with
  | invalid reason => some (.validation failure.message (some reason.field))
  | missing what => some (.notFound failure.message (some what.identity.text) what.version?)
  | registry _ _ cause => some (.registry failure.message (some cause.message))
  | table _ => some (.storage failure.message)
  | counterOutOfRange | unwritable | undecodable _ | unexpected _ => none

end Failure

end Schemata.Catalog

import Schemata.Json.Value

/-!
# Identities

An identity names one schema across all of its versions: a label that is unique within a context. Two identities are
the same when both parts are.
-/

namespace Schemata.Catalog

/-- The name of a schema. -/
structure Identity where
  /-- The namespace that it belongs to. -/
  context : String
  label : String
  deriving DecidableEq, Repr

namespace Identity

/-- The identity in words, its parts with a colon between them. -/
def text (identity : Identity) : String := identity.context ++ ":" ++ identity.label

/-- The identity as named values. -/
def fields (identity : Identity) : Json.Fields :=
  [("namespace", .string identity.context), ("id", .string identity.label)]

end Identity

end Schemata.Catalog

import Schemata.Catalog.Descriptor
import Schemata.Proofs.Json.RoundTrip

/-!
# The row of a descriptor is read back

The row of a described draft is an object with its three texts in the order of their names (`documentOfRow_row`). It is
read as the name, the description and the format, whatever characters the two texts have (`Descriptor.ofRow_row`).
-/

namespace Schemata.Catalog

open Json

/-- The text of a described draft is read as an object with its three texts, in the order of their names. -/
theorem parse_row (description name tag : String) :
    parse (Value.write .row
      (.object [("description", .string description), ("name", .string name), ("type", .string tag)])) =
      .ok (.object [("description", .string description), ("name", .string name), ("type", .string tag)]) := by
  apply parse_write Style.isSpaced_row
  apply Value.IsExact.object
  · show ["description", "name", "type"].Nodup
    decide
  · simp only [List.forall_mem_cons, List.not_mem_nil, false_imp_iff, implies_true, and_true]
    exact ⟨.string description, .string name, .string tag⟩

/-- The row holds the three texts in the order of their names. -/
theorem documentOfRow_row (draft : Draft) (format : Format) : documentOfRow (draft.descriptor format).row = .ok (.object
    [("description", .string draft.description), ("name", .string draft.name), ("type", .string format.tag)]) := by
  rw [documentOfRow, Descriptor.row, Bytes.toText?_ofText]
  simp only [Draft.descriptor, parse_row]

/-- **The row of a described draft is read back.** -/
theorem Descriptor.ofRow_row (identity : Identity) (draft : Draft) (format : Format) :
    Descriptor.ofRow identity (draft.descriptor format).row =
      .ok ⟨identity, .string draft.name, .string draft.description, format⟩ := by
  rw [Descriptor.ofRow, documentOfRow_row]
  simp [fieldOf, field?, formatOf, Bind.bind, Except.bind]

end Schemata.Catalog

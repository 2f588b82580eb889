import Schemata.Proofs.Catalog.Erasure
import Schemata.Proofs.Catalog.Isolation

/-!
# Descriptors are read back

- The row of a described draft is written in printable ASCII alone (`plain_row`).
- A descriptor that was written to any table is read from it as it was, if its identity fits into keys; otherwise both
  operations are refused (`descriptor_read_back`, `not_descriptor_read_back`).
-/

namespace Schemata.Catalog

open Json
open Table (Backend Contents Store)

/-- **The row of a described draft** is written in printable ASCII alone. -/
theorem plain_row (draft : Draft) (format : Format) :
    ∀ b ∈ (draft.descriptor format).row, 0x20 ≤ b ∧ b < 0x7f := by
  have hplain : ∀ c ∈ Value.text .row (.object [("description", .string draft.description),
      ("name", .string draft.name), ("type", .string format.tag)]), IsPlainAscii c := by
    have htext := isPlainAscii_stringText
    have hcolon : ∀ c ∈ Style.row.colon.toList, IsPlainAscii c := isPlainAscii_of_all (by decide)
    have hcomma : ∀ c ∈ Style.row.comma.toList, IsPlainAscii c := isPlainAscii_of_all (by decide)
    simp only [Value.text, fieldsText, List.cons_append, List.forall_mem_cons, List.forall_mem_append]
    exact ⟨by decide, ⟨⟨⟨⟨htext _, hcolon⟩, htext _⟩, hcomma⟩, ⟨⟨⟨htext _, hcolon⟩, htext _⟩, hcomma⟩,
      ⟨htext _, hcolon⟩, htext _⟩, by decide, List.forall_mem_nil _⟩
  intro b hb
  rw [Descriptor.row, Value.write, Bytes.ofText_ofList, List.mem_flatMap] at hb
  obtain ⟨c, hc, hb⟩ := hb
  obtain ⟨hmin, hmax⟩ := hplain c hc
  have hone : String.utf8EncodeChar c = [UInt8.ofNat c.toNat] := by
    rw [String.utf8EncodeChar]
    exact if_pos (by change c.toNat ≤ 127; omega)
  rw [hone, List.mem_singleton] at hb
  subst hb
  rw [UInt8.le_iff_toNat_le, UInt8.lt_iff_toNat_lt, UInt8.toNat_ofNat']
  simp
  omega

/-! ## Reading back -/

section ReadBack

variable {σ : Type} {backend : Backend σ} {holds : σ → Contents → Prop} {state : σ} {s : Contents}

/-- A descriptor whose identity fits into keys is read as it was written. -/
theorem run_descriptor?_of_fits (hb : backend.Represents holds) (hs : holds state s) (draft : Draft) (format : Format)
    (hi : draft.identity.Fits) {written : Table.Outcome σ (Except Failure Unit)}
    (hwritten : written = (Rows.putDescriptor (draft.descriptor format)).run.run backend state) :
    written.value = .ok () ∧
      ((Rows.descriptor? draft.identity).run.run backend written.state).value =
        .ok (some (draft.descriptor format)) := by
  subst hwritten
  have hkey := Identity.key_descriptor hi
  have hput : (Rows.putDescriptor (draft.descriptor format)).Tries Table.Calm s ()
      (draft.identity.putRow s .descriptor (draft.descriptor format).row) := Rows.tries_put hkey
  obtain ⟨t, ht, hends⟩ := Work.ends_run_calm hb (Rows.putDescriptor (draft.descriptor format)) hs
  rcases (hput _ _).1 hends with ⟨_, hcalm, -⟩ | ⟨hvalue, rfl⟩
  · exact hcalm.elim
  · have hrow : draft.identity.row? (draft.identity.putRow s .descriptor (draft.descriptor format).row) .descriptor =
        some (draft.descriptor format).row := by rw [Identity.row?_putRow hkey, if_pos ⟨rfl, rfl⟩]
    exact ⟨hvalue, (Rows.asks_descriptor?_of_row hi hrow (Descriptor.ofRow_row _ draft format)).tries.run hb ht⟩

/-- A descriptor whose identity does not fit can be neither written nor read. -/
theorem run_descriptor?_of_not_fits (backend : Backend σ) (state : σ) (draft : Draft) (format : Format)
    (hi : ¬draft.identity.Fits) :
    ∃ part size, (Rows.putDescriptor (draft.descriptor format)).run.run backend state =
        ⟨.error (.invalid (.tooLong part size)), state, []⟩ ∧
      (Rows.descriptor? draft.identity).run.run backend state = ⟨.error (.invalid (.tooLong part size)), state, []⟩ := by
  obtain ⟨part, size, hstem⟩ := Identity.stem_of_not_fits hi
  have hput : Rows.putDescriptor (draft.descriptor format) = throw (.invalid (.tooLong part size)) :=
    Rows.put_of_error (Identity.key_of_stem_error hstem rfl)
  refine ⟨part, size, ?_, ?_⟩
  · rw [hput]
    rfl
  · rw [Rows.descriptor?_of_stem_error hstem]
    rfl

/-- **Descriptors are read back.** On any table, whatever its rows are, a descriptor with any texts and any format whose
identity fits into keys is written, and is then read as it was. Its row is printable ASCII, with pairs for what is above
`U+FFFF`, and holds the three texts in the order of their names. An identity that does not fit has no keys: then both
operations are refused, and the table stays as it was. -/
theorem descriptor_read_back (hb : backend.Represents holds) (hs : holds state s) (draft : Draft) (format : Format)
    {written : Table.Outcome σ (Except Failure Unit)}
    (hwritten : written = (Rows.putDescriptor (draft.descriptor format)).run.run backend state) :
    (draft.identity.Fits → written.value = .ok () ∧
      ((Rows.descriptor? draft.identity).run.run backend written.state).value =
        .ok (some (draft.descriptor format))) ∧
      ((∀ b ∈ (draft.descriptor format).row, 0x20 ≤ b ∧ b < 0x7f) ∧
        (∀ c : Char, 0x10000 ≤ c.toNat → ∃ high low, isHighHalf high = true ∧ isLowHalf low = true ∧
          charOfPair high low = c ∧ stringChar Style.row.asciiOnly c = escapedUnit high ++ escapedUnit low) ∧
        documentOfRow (draft.descriptor format).row = .ok (.object [("description", .string draft.description),
          ("name", .string draft.name), ("type", .string format.tag)])) ∧
        (¬draft.identity.Fits → written.state = state ∧ ∃ part size,
          written.value = .error (.invalid (.tooLong part size)) ∧
            ((Rows.descriptor? draft.identity).run.run backend written.state).value =
              .error (.invalid (.tooLong part size))) := by
  refine ⟨fun hi => run_descriptor?_of_fits hb hs draft format hi hwritten,
    ⟨plain_row draft format, fun c => exists_pair_stringChar, documentOfRow_row draft format⟩, fun hi => ?_⟩
  obtain ⟨part, size, hput, hget⟩ := run_descriptor?_of_not_fits backend state draft format hi
  subst hwritten
  rw [hput]
  exact ⟨rfl, part, size, rfl, by rw [hget]⟩

end ReadBack

namespace Sample

/-- Texts with a quote, a backslash, a control character, a delete character, letters outside ASCII, and two characters
above the first plane side by side. -/
def odd : Draft := ⟨order, "\"\\\x01\x7f", "é\ud7ff😀🎉\ue000", .known .copybook⟩

/-- A descriptor for an identity that does not fit into keys. -/
def oversized : Draft := ⟨wordy, "n", "d", .known .avro⟩

end Sample

/-- Odd texts are read back from a row that held no descriptor before. -/
theorem descriptor_read_back_odd :
    Sample.order.rowOf (.memory (Sample.stray [1])) .descriptor = some [1] ∧
      ((Rows.descriptor? Sample.order).run.run Store.backend
        ((Rows.putDescriptor (Sample.odd.descriptor .copybook)).run.run Store.backend
          (.memory (Sample.stray [1]))).state).value = .ok (some (Sample.odd.descriptor .copybook)) := by
  refine ⟨by decide +kernel, ?_⟩
  obtain ⟨hfits, -⟩ := descriptor_read_back Store.represents (Sample.holds_stray [1]) Sample.odd .copybook rfl
  exact (hfits (by decide)).2

/-- **Not every descriptor can be written**: one for an identity that does not fit into keys is refused, though no
command fails. -/
theorem not_descriptor_read_back : ¬∀ (draft : Draft) (format : Format) (store : Store) (s : Contents),
    store.Holds s → ((Rows.descriptor? draft.identity).run.run Store.backend
      ((Rows.putDescriptor (draft.descriptor format)).run.run Store.backend store).state).value =
        .ok (some (draft.descriptor format)) := by
  intro h
  have hread := h Sample.oversized .avro (.memory .empty) .empty Table.Indexed.holds_empty
  obtain ⟨part, size, hput, hget⟩ := run_descriptor?_of_not_fits Store.backend (.memory .empty)
    Sample.oversized .avro Sample.not_fits_wordy
  rw [hput, hget] at hread
  cases hread

end Schemata.Catalog

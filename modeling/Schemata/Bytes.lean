/-!
# Byte strings

Keys and values of a table are lists of octets, compared from the left with a proper start of a string before the
string itself (`Bytes.before`, which is the lexicographic order: `before_iff_lt`). A text is turned into octets by
UTF-8 (`Bytes.ofText`), which keeps different texts apart (`ofText_injective`) and is undone by `Bytes.toText?`.
-/

namespace Schemata

/-- A string of octets. -/
abbrev Bytes := List UInt8

namespace Bytes

/-! ## Order -/

/-- Whether the first string comes strictly before the second in lexicographic order. -/
def before (a b : Bytes) : Bool := List.lex a b fun x y => decide (x < y)

theorem before_iff_lt {a b : Bytes} : before a b = true ↔ a < b := by
  simp [before]

/-! ## Texts -/

/-- The UTF-8 octets of a text. -/
def ofText (text : String) : Bytes := text.toUTF8.data.toList

/-- The text with these UTF-8 octets, if they are valid. -/
def toText? (bytes : Bytes) : Option String := String.fromUTF8? ⟨bytes.toArray⟩

theorem ofText_injective {s t : String} (h : ofText s = ofText t) : s = t := by
  have hd : s.toUTF8.data = t.toUTF8.data := Array.toList_inj.1 h
  have hb : s.toByteArray = t.toByteArray := ByteArray.ext hd
  exact String.toByteArray_inj.1 hb

theorem length_ofText (text : String) : (ofText text).length = text.utf8ByteSize := rfl

/-- The octets of a text are those of its characters. -/
theorem ofText_ofList (cs : List Char) : ofText (String.ofList cs) = cs.flatMap String.utf8EncodeChar := by
  rw [ofText, String.toUTF8, String.toByteArray_ofList, List.utf8Encode]
  simp

theorem toText?_ofText (text : String) : toText? (ofText text) = some text := by
  have hb : (⟨(ofText text).toArray⟩ : ByteArray) = text.toByteArray := rfl
  simp [toText?, hb, String.fromUTF8?, String.fromUTF8, text.isValidUTF8]

end Bytes

end Schemata

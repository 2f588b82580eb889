import Schemata.Proofs.Json.Fields
import Schemata.Proofs.Json.Numbers
import Schemata.Proofs.Json.Steps
import Schemata.Proofs.Json.Written

/-!
# Written values are read back

The text of a value, in any style that puts only blanks behind commas and colons, is read as that value up to the text
that follows (`readsBack_of_isExact`): by induction on the value, where the text that follows a value inside a container
starts with a comma or the closing bracket and so ends every number. This is so in a call that has room for the levels
of the value; any other call stops at a container without room (`Passes`). A document that is nothing but the text of a
value is the value (`parse_write`), and so is its compact text, which is what values are exchanged as
(`parseLowered_compact`).
-/

namespace Schemata.Json

/-! ## Which styles -/

/-- The style puts only blanks behind the comma and the colon. -/
structure Style.IsSpaced (style : Style) : Prop where
  comma : ∃ blanks, style.comma.toList = ',' :: blanks ∧ ∀ c ∈ blanks, isBlank c = true
  colon : ∃ blanks, style.colon.toList = ':' :: blanks ∧ ∀ c ∈ blanks, isBlank c = true

theorem Style.isSpaced_row : Style.row.IsSpaced where
  comma := ⟨[' '], rfl, List.forall_mem_singleton.2 rfl⟩
  colon := ⟨[' '], rfl, List.forall_mem_singleton.2 rfl⟩

/-! ## The texts of containers -/

/-- The text of one field. -/
def fieldText (style : Style) (p : String × Value) : List Char :=
  stringText style.asciiOnly p.1 ++ style.colon.toList ++ p.2.text style

theorem elementsText_cons (style : Style) (v : Value) (elements : List Value) :
    elementsText style (v :: elements) =
      v.text style ++ elements.flatMap fun w => style.comma.toList ++ w.text style := by
  induction elements generalizing v with
  | nil => simp [elementsText]
  | cons w elements ih =>
    rw [elementsText, ih w, List.flatMap_cons]
    · simp only [List.append_assoc]
    · simp

theorem fieldsText_cons (style : Style) (p : String × Value) (fields : Fields) :
    fieldsText style (p :: fields) =
      fieldText style p ++ fields.flatMap fun q => style.comma.toList ++ fieldText style q := by
  induction fields generalizing p with
  | nil => simp [fieldsText, fieldText]
  | cons q fields ih =>
    rw [fieldsText, ih q, List.flatMap_cons]
    · simp only [fieldText, List.append_assoc]
    · simp

/-! ## Reading the text of a value -/

section Reading

variable {style : Style} {room : Room} {v : Value} {rest : List Char}

/-- What reading so many levels inside of containers comes to: where there is room for them it goes on as something
else does, and where there is none it stops at a container. -/
structure Passes (room : Room) (inside levels : Nat) (result next : Except Stop (Value × List Char)) : Prop where
  on : room.holds (inside + levels) = true → result = next
  off : room.holds (inside + levels) = false → ∃ container, result = .error (.tooDeep container)

/-- No levels are read where there is room for what is open. -/
theorem passes_zero {inside : Nat} (h : room.holds inside = true) {result next : Except Stop (Value × List Char)}
    (heq : result = next) : Passes room inside 0 result next where
  on _ := heq
  off hfull := by
    rw [Nat.add_zero, h] at hfull
    cases hfull

/-- One thing is read after the other. -/
theorem Passes.trans {inside a b : Nat} {result between next : Except Stop (Value × List Char)}
    (h : Passes room inside a result between) (h' : Passes room inside b between next) :
    Passes room inside (max a b) result next := by
  have hmax := room.holds_max inside a b
  refine ⟨fun hroom => ?_, fun hfull => ?_⟩
  · rw [hmax, Bool.and_eq_true] at hroom
    exact (h.on hroom.1).trans (h'.on hroom.2)
  · rw [hmax] at hfull
    cases ha : room.holds (inside + a) with
    | false => exact h.off ha
    | true =>
      rw [ha, Bool.true_and] at hfull
      rw [h.on ha]
      exact h'.off hfull

/-- A container is one level more than what is in it. -/
theorem passes_open {inside levels : Nat} {container : Container} {result next : Except Stop (Value × List Char)}
    (hfull : room.holds (inside + 1) = false → result = .error (.tooDeep container))
    (hopen : room.holds (inside + 1) = true → Passes room (inside + 1) levels result next) :
    Passes room inside (levels + 1) result next := by
  have hsum : inside + (levels + 1) = inside + 1 + levels := by omega
  cases hone : room.holds (inside + 1) with
  | true =>
    have hpasses := hopen hone
    exact ⟨hsum ▸ hpasses.on, hsum ▸ hpasses.off⟩
  | false =>
    refine ⟨fun hroom => ?_, fun _ => ⟨container, hfull hone⟩⟩
    rw [hsum] at hroom
    rw [Room.holds_of_le (Nat.le_add_right ..) hroom] at hone
    cases hone

/-- The characters with which a scalar starts. -/
def scalarStarts : List Char :=
  ['"', '-', '0', '1', '2', '3', '4', '5', '6', '7', '8', '9', 'n', 't', 'f', 'N', 'I']

/-- The characters with which a value starts. -/
def valueStarts : List Char := '[' :: '\x7b' :: scalarStarts

theorem scalarStarts_spec : ∀ c ∈ scalarStarts, isBlank c = false ∧ c ≠ '[' ∧ c ≠ '\x7b' := by
  simp [scalarStarts, isBlank]

theorem valueStarts_spec : ∀ c ∈ valueStarts, isBlank c = false ∧ c ≠ ']' ∧ c ≠ '\ufeff' := by
  simp [valueStarts, scalarStarts, isBlank]

/-- The text of the value starts as a value does and is read as the value, as far as there is room for it, whatever is
open and whatever follows that does not go on with a number. -/
structure ReadsBack (style : Style) (v : Value) : Prop where
  starts : ∃ c ∈ valueStarts, ∃ cs, v.text style = c :: cs
  reads : ∀ (room : Room) (stack : List Frame) (rest : List Char), room.holds stack.length = true → EndsNumber rest →
    Passes room stack.length v.depth (read room stack .expect (v.text style ++ rest)) (read room stack (.place v) rest)

theorem readsBack_scalar (hdepth : v.depth = 0) {c : Char} {cs : List Char} (hc : c ∈ scalarStarts)
    (htext : v.text style = c :: cs)
    (h : ∀ rest, EndsNumber rest → readScalar (v.text style ++ rest) = .ok (v, rest)) : ReadsBack style v := by
  obtain ⟨hblank, harray, hobject⟩ := scalarStarts_spec c hc
  refine ⟨⟨c, List.mem_cons_of_mem _ (List.mem_cons_of_mem _ hc), cs, htext⟩, ?_⟩
  intro room stack rest hroom hrest
  have hread := h rest hrest
  rw [htext, List.cons_append] at hread ⊢
  rw [hdepth]
  exact passes_zero hroom (read_scalar hblank harray hobject hread)

theorem exists_cons_literal : ∀ l ∈ literals, ∃ c ∈ scalarStarts, ∃ cs, l.1.toList = c :: cs := by
  simp [literals, scalarStarts]

theorem readsBack_literal (hdepth : v.depth = 0) (name : String) (hl : (name, v) ∈ literals)
    (htext : v.text style = name.toList) : ReadsBack style v := by
  obtain ⟨c, hc, cs, hname⟩ := exists_cons_literal _ hl
  apply readsBack_scalar hdepth hc (htext.trans hname)
  intro rest _
  rw [htext]
  exact readScalar_literal rest _ hl

theorem mem_scalarStarts_of_mem_decimalDigits {n : Nat} {c : Char} (h : c ∈ Text.decimalDigits n) :
    c ∈ scalarStarts := by
  have hdigits : ∀ d < 10, Text.digitOf d ∈ scalarStarts := by decide
  obtain ⟨d, hd, rfl⟩ := Text.exists_of_mem_decimalDigits h
  exact hdigits d hd

theorem exists_cons_decimalInt (n : Int) : ∃ c ∈ scalarStarts, ∃ cs, Text.decimalInt n = c :: cs := by
  cases n with
  | ofNat n =>
    obtain ⟨c, cs, hdigits, -⟩ := exists_cons_decimalDigits n
    exact ⟨c, mem_scalarStarts_of_mem_decimalDigits (n := n) (by simp [hdigits]), cs, hdigits⟩
  | negSucc n => exact ⟨'-', by decide, _, rfl⟩

theorem readsBack_int {n : Int} (h : n.natAbs < 10 ^ Text.maxDigits) : ReadsBack style (.int n) := by
  obtain ⟨c, hc, cs, hn⟩ := exists_cons_decimalInt n
  apply readsBack_scalar (v := .int n) (by rw [Value.depth]) hc hn
  intro rest hrest
  exact readScalar_decimalInt h hrest

theorem readsBack_string (s : String) : ReadsBack style (.string s) := by
  apply readsBack_scalar (c := '"') (by rw [Value.depth]) (by decide) rfl
  intro rest _
  exact readScalar_stringText style.asciiOnly s rest

/-- What follows an element or a field ends every number: a comma or the closing bracket. -/
theorem endsNumber_flatMap (hstyle : style.IsSpaced) {α : Type} (text : α → List Char) (others : List α) {close : Char}
    (hclose : EndsNumber (close :: rest)) :
    EndsNumber ((others.flatMap fun a => style.comma.toList ++ text a) ++ close :: rest) := by
  cases others with
  | nil => exact hclose
  | cons a others =>
    obtain ⟨blanks, hcomma, -⟩ := hstyle.comma
    rw [List.flatMap_cons, hcomma, List.cons_append, List.cons_append]
    exact endsNumber_cons rfl (by decide) (by decide) (by decide)

theorem endsNumber_closeArray (rest : List Char) : EndsNumber (']' :: rest) :=
  endsNumber_cons rfl (by decide) (by decide) (by decide)

theorem endsNumber_closeObject (rest : List Char) : EndsNumber ('\x7d' :: rest) :=
  endsNumber_cons rfl (by decide) (by decide) (by decide)

/-- The elements behind one that is read are read up to the closing bracket. -/
theorem read_elements (hstyle : style.IsSpaced) {elements : List Value} (h : ∀ w ∈ elements, ReadsBack style w)
    (before : List Value) {stack : List Frame} (hroom : room.holds (stack.length + 1) = true) (rest : List Char) :
    Passes room (stack.length + 1) (elementsDepth elements)
      (read room (.elements before :: stack) (.place v)
        ((elements.flatMap fun w => style.comma.toList ++ w.text style) ++ ']' :: rest))
      (read room stack (.place (.array (before.reverse ++ v :: elements))) rest) := by
  induction elements generalizing v before with
  | nil =>
    rw [elementsDepth, List.flatMap_nil, List.nil_append, read_closeArray, List.reverse_cons]
    exact passes_zero hroom rfl
  | cons w elements ih =>
    obtain ⟨hw, helements⟩ := List.forall_mem_cons.1 h
    obtain ⟨blanks, hcomma, hblanks⟩ := hstyle.comma
    have hends := endsNumber_flatMap hstyle (Value.text style) elements (endsNumber_closeArray rest)
    have htext : (((w :: elements).flatMap fun w => style.comma.toList ++ w.text style) ++ ']' :: rest) =
        ',' :: (blanks ++ (w.text style ++
          ((elements.flatMap fun w => style.comma.toList ++ w.text style) ++ ']' :: rest))) := by
      simp [hcomma]
    have hrest := ih (v := w) helements (v :: before)
    rw [List.reverse_cons, List.append_assoc] at hrest
    rw [elementsDepth, htext, read_nextElement, read_blanks hblanks]
    exact (hw.reads room (.elements (v :: before) :: stack) _ hroom hends).trans hrest

/-- The fields behind one that is read are read up to the closing brace. -/
theorem read_fields (hstyle : style.IsSpaced) {fields : Fields} (h : ∀ p ∈ fields, ReadsBack style p.2)
    (before : Fields) {name : String} (hnames : ((before ++ (name, v) :: fields).map (·.1)).Nodup)
    {stack : List Frame} (hroom : room.holds (stack.length + 1) = true) (rest : List Char) :
    Passes room (stack.length + 1) (fieldsDepth fields)
      (read room (.fields before name :: stack) (.place v)
        ((fields.flatMap fun p => style.comma.toList ++ fieldText style p) ++ '\x7d' :: rest))
      (read room stack (.place (.object (before ++ (name, v) :: fields))) rest) := by
  induction fields generalizing v before name with
  | nil =>
    have hname := not_mem_of_nodup_append hnames
    rw [fieldsDepth, List.flatMap_nil, List.nil_append, read_closeObject, setField_of_not_mem hname]
    exact passes_zero hroom rfl
  | cons p fields ih =>
    obtain ⟨next, w⟩ := p
    obtain ⟨hw, hfields⟩ := List.forall_mem_cons.1 h
    obtain ⟨commaBlanks, hcomma, hcommaBlanks⟩ := hstyle.comma
    obtain ⟨colonBlanks, hcolon, hcolonBlanks⟩ := hstyle.colon
    have hname := not_mem_of_nodup_append hnames
    have hends := endsNumber_flatMap hstyle (fieldText style) fields (endsNumber_closeObject rest)
    have htext : ((((next, w) :: fields).flatMap fun p => style.comma.toList ++ fieldText style p) ++ '\x7d' :: rest) =
        ',' :: (commaBlanks ++ (stringText style.asciiOnly next ++ ':' :: (colonBlanks ++ (w.text style ++
          ((fields.flatMap fun p => style.comma.toList ++ fieldText style p) ++ '\x7d' :: rest))))) := by
      simp [fieldText, hcomma, hcolon]
    -- What is read goes behind `before`, and the names to come stay distinct from it.
    have hsplit : before ++ (name, v) :: (next, w) :: fields = (before ++ [(name, v)]) ++ (next, w) :: fields := by
      simp
    rw [hsplit] at hnames ⊢
    rw [fieldsDepth, htext, read_nextField hcommaBlanks, read_blanks hcolonBlanks, setField_of_not_mem hname]
    exact (hw.reads room (.fields (before ++ [(name, v)]) next :: stack) _ hroom hends).trans (ih hfields _ hnames)

theorem readsBack_array (hstyle : style.IsSpaced) {elements : List Value} (h : ∀ w ∈ elements, ReadsBack style w) :
    ReadsBack style (.array elements) := by
  refine ⟨⟨'[', by decide, _, rfl⟩, ?_⟩
  intro room stack rest _ _
  have hnone (hfull : room.holds (stack.length + 1) = false) :
      read room stack .expect ((Value.array elements).text style ++ rest) = .error (.tooDeep .array) :=
    read_noArray hfull
  rw [Value.depth]
  refine passes_open hnone fun hroom => ?_
  cases elements with
  | nil => exact passes_zero hroom (read_emptyArray hroom)
  | cons v elements =>
    obtain ⟨hv, helements⟩ := List.forall_mem_cons.1 h
    -- The first element starts with no bracket that would close the array at once.
    obtain ⟨c, hc, cs, hstart⟩ := hv.starts
    obtain ⟨hblank, hclose, -⟩ := valueStarts_spec c hc
    have hends := endsNumber_flatMap hstyle (Value.text style) elements (endsNumber_closeArray rest)
    have htext : (Value.array (v :: elements)).text style ++ rest =
        '[' :: (v.text style ++
          ((elements.flatMap fun w => style.comma.toList ++ w.text style) ++ ']' :: rest)) := by
      rw [Value.text, elementsText_cons]
      simp
    rw [elementsDepth, htext, hstart, List.cons_append, read_openArray hroom hblank hclose, ← List.cons_append,
      ← hstart]
    exact (hv.reads room (.elements [] :: stack) _ hroom hends).trans (read_elements hstyle helements [] hroom rest)

theorem readsBack_object (hstyle : style.IsSpaced) {fields : Fields} (hnames : (fields.map (·.1)).Nodup)
    (h : ∀ p ∈ fields, ReadsBack style p.2) : ReadsBack style (.object fields) := by
  refine ⟨⟨'\x7b', by decide, _, rfl⟩, ?_⟩
  intro room stack rest _ _
  have hnone (hfull : room.holds (stack.length + 1) = false) :
      read room stack .expect ((Value.object fields).text style ++ rest) = .error (.tooDeep .object) :=
    read_noObject hfull
  rw [Value.depth]
  refine passes_open hnone fun hroom => ?_
  cases fields with
  | nil => exact passes_zero hroom (read_emptyObject hroom)
  | cons p fields =>
    obtain ⟨name, v⟩ := p
    obtain ⟨hv, hfields⟩ := List.forall_mem_cons.1 h
    obtain ⟨blanks, hcolon, hblanks⟩ := hstyle.colon
    have hends := endsNumber_flatMap hstyle (fieldText style) fields (endsNumber_closeObject rest)
    have htext : (Value.object ((name, v) :: fields)).text style ++ rest =
        '\x7b' :: (stringText style.asciiOnly name ++ ':' :: (blanks ++ (v.text style ++
          ((fields.flatMap fun p => style.comma.toList ++ fieldText style p) ++ '\x7d' :: rest)))) := by
      rw [Value.text, fieldsText_cons, fieldText]
      simp [hcolon]
    rw [fieldsDepth, htext, read_openObject hroom, read_blanks hblanks]
    exact (hv.reads room (.fields [] name :: stack) _ hroom hends).trans
      (read_fields hstyle hfields [] hnames hroom rest)

/-- **The text of a value is read as the value.** -/
theorem readsBack_of_isExact (hstyle : style.IsSpaced) (h : v.IsExact) : ReadsBack style v := by
  induction h with
  | null => exact readsBack_literal (by rw [Value.depth]) "null" (by simp [literals]) rfl
  | bool b =>
    cases b with
    | false => exact readsBack_literal (by rw [Value.depth]) "false" (by simp [literals]) rfl
    | true => exact readsBack_literal (by rw [Value.depth]) "true" (by simp [literals]) rfl
  | int h => exact readsBack_int h
  | nan => exact readsBack_literal (by rw [Value.depth]) "NaN" (by simp [literals]) rfl
  | infinite negative =>
    cases negative with
    | false => exact readsBack_literal (by rw [Value.depth]) "Infinity" (by simp [literals]) rfl
    | true => exact readsBack_literal (by rw [Value.depth]) "-Infinity" (by simp [literals]) rfl
  | string s => exact readsBack_string s
  | array _ ih => exact readsBack_array hstyle ih
  | object hnames _ ih => exact readsBack_object hstyle hnames ih

end Reading

/-! ## Documents -/

section Documents

variable {style : Style} {room : Room} {v : Value}

/-- The text of a value is a document: it is the value, as far as there is room for it. -/
theorem passes_document (hstyle : style.IsSpaced) (h : v.IsExact) (room : Room) :
    Passes room 0 v.depth (read room [] .expect (v.text style)) (.ok (v, [])) := by
  have hreads := (readsBack_of_isExact hstyle h).reads room [] [] room.holds_zero endsNumber_nil
  rw [List.append_nil, read_document] at hreads
  exact hreads

/-- No mark of a byte order stands in front of the text of a value. -/
theorem head?_text_ne (hstyle : style.IsSpaced) (h : v.IsExact) : (v.text style).head? ≠ some '\ufeff' := by
  obtain ⟨c, hc, cs, htext⟩ := (readsBack_of_isExact hstyle h).starts
  rw [htext, List.head?_cons]
  intro h
  exact (valueStarts_spec c hc).2.2 (Option.some.inj h)

theorem parse_of_holds (hstyle : style.IsSpaced) (h : v.IsExact) (hroom : room.holds v.depth = true) :
    parse (v.write style) room = .ok v := by
  have hread := (passes_document hstyle h room).on (v.depth.zero_add.symm ▸ hroom)
  simp only [parse, Value.write, String.toList_ofList, head?_text_ne hstyle h, ↓reduceIte, hread]
  rfl

/-- **A document that is the text of a value is the value.** -/
theorem parse_write (hstyle : style.IsSpaced) (h : v.IsExact) : parse (v.write style) = .ok v :=
  parse_of_holds hstyle h rfl

end Documents

/-- Containers in containers, with names that are escaped and in no order, and the longest integer. -/
def Sample.document : Value :=
  .object [
    ("z\"\\\n\x01", .array [.int (-((10 ^ Text.maxDigits - 1 : Nat) : Int)), .bool true, .int 1, .null, .array []]),
    ("é😀", .object [("", .string "\t\x7f\ufeff"), ("A", .double .nan), ("a", .object [])]),
    ("a", .array [.double (.infinite false), .array [.double (.infinite true)], .bool false])]

/-- So many arrays, each but the innermost with the next as its element. -/
def Sample.nested : Nat → Value
  | 0 => .array []
  | n + 1 => .array [nested n]

end Schemata.Json

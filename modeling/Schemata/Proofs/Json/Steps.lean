import Schemata.Proofs.Json.Strings

/-!
# Steps of the reader

What one token does to the open containers: blanks are passed over (`read_blanks`) and a scalar is put in its place
(`read_scalar`). A bracket opens an array (`read_openArray`), a comma goes on with it (`read_nextElement`), and the
closing bracket puts it in its place (`read_closeArray`); a brace and a name open an object (`read_openObject`), a
comma and a name go on with it (`read_nextField`), and the closing brace puts it in its place (`read_closeObject`).
Neither is opened where there is no room for it (`read_noArray`, `read_noObject`).
-/

namespace Schemata.Json

variable {room : Room} {stack : List Frame} {elements : List Value} {before : Fields} {name : String} {v : Value}
  {blanks cs rest : List Char}

/-! ## Blanks -/

theorem skipBlanks_append (h : ∀ c ∈ blanks, isBlank c = true) : skipBlanks (blanks ++ cs) = skipBlanks cs := by
  rw [skipBlanks, List.dropWhile_append_of_pos h]
  rfl

theorem skipBlanks_of_not_blank {c : Char} (h : isBlank c = false) : skipBlanks (c :: cs) = c :: cs := by
  rw [skipBlanks, List.dropWhile_cons_of_neg (by simp [h])]

/-- Before a value it counts only what follows the blanks. -/
theorem read_congr (h : skipBlanks cs = skipBlanks rest) :
    read room stack .expect cs = read room stack .expect rest := by
  conv => lhs; rw [read]
  conv => rhs; rw [read]
  rw [h]

theorem read_blanks (h : ∀ c ∈ blanks, isBlank c = true) :
    read room stack .expect (blanks ++ cs) = read room stack .expect cs :=
  read_congr (skipBlanks_append h)

/-- A complete value outside every container is the document. -/
theorem read_document : read room [] (.place v) rest = .ok (v, rest) := by rw [read]

/-! ## Scalars -/

/-- What starts no container is read as a scalar. -/
theorem read_expect {c : Char} (hblank : isBlank c = false) (harray : c ≠ '[') (hobject : c ≠ '\x7b') :
    read room stack .expect (c :: cs) =
      match readScalar (c :: cs) with
      | .error stop => .error stop
      | .ok (v, rest) => read room stack (.place v) rest := by
  have hskip : skipBlanks (c :: cs) = c :: cs := skipBlanks_of_not_blank hblank
  rw [read]
  split
  · rename_i heq
    rw [hskip] at heq
    exact absurd (List.cons.inj heq).1 harray
  · rename_i heq
    rw [hskip] at heq
    exact absurd (List.cons.inj heq).1 hobject
  · rw [hskip]
    split <;> rename_i heq <;> rw [heq]

/-- A scalar is put in its place. -/
theorem read_scalar {c : Char} (hblank : isBlank c = false) (harray : c ≠ '[') (hobject : c ≠ '\x7b')
    (h : readScalar (c :: cs) = .ok (v, rest)) :
    read room stack .expect (c :: cs) = read room stack (.place v) rest := by
  rw [read_expect hblank harray hobject, h]

/-! ## Arrays -/

/-- Where there is no room for another container, no array is opened. -/
theorem read_noArray (hroom : room.holds (stack.length + 1) = false) :
    read room stack .expect ('[' :: rest) = .error (.tooDeep .array) := by
  rw [read, skipBlanks_of_not_blank (show isBlank '[' = false from rfl)]
  simp only [hroom, Bool.false_eq_true, ↓reduceIte]

/-- Two brackets are the array without elements. -/
theorem read_emptyArray (hroom : room.holds (stack.length + 1) = true) :
    read room stack .expect ('[' :: ']' :: rest) = read room stack (.place (.array [])) rest := by
  conv => lhs; rw [read, skipBlanks_of_not_blank (show isBlank '[' = false from rfl)]
  simp only [hroom, ↓reduceIte]
  rw [skipBlanks_of_not_blank (show isBlank ']' = false from rfl)]
  rfl

/-- A bracket opens an array, if it is not closed at once. -/
theorem read_openArray (hroom : room.holds (stack.length + 1) = true) {c : Char} (hblank : isBlank c = false)
    (hc : c ≠ ']') :
    read room stack .expect ('[' :: c :: cs) = read room (.elements [] :: stack) .expect (c :: cs) := by
  conv => lhs; rw [read, skipBlanks_of_not_blank (show isBlank '[' = false from rfl)]
  simp only [hroom, ↓reduceIte]
  rw [skipBlanks_of_not_blank hblank]
  split
  · rename_i heq
    exact absurd (List.cons.inj heq).1 hc
  · rfl

/-- A comma goes on with an array. -/
theorem read_nextElement :
    read room (.elements elements :: stack) (.place v) (',' :: rest) =
      read room (.elements (v :: elements) :: stack) .expect rest := by
  conv => lhs; rw [read, skipBlanks_of_not_blank (show isBlank ',' = false from rfl)]
  rfl

/-- The closing bracket puts an array in its place. -/
theorem read_closeArray :
    read room (.elements elements :: stack) (.place v) (']' :: rest) =
      read room stack (.place (.array (v :: elements).reverse)) rest := by
  conv => lhs; rw [read, skipBlanks_of_not_blank (show isBlank ']' = false from rfl)]
  rfl

/-! ## Objects -/

/-- Where there is no room for another container, no object is opened. -/
theorem read_noObject (hroom : room.holds (stack.length + 1) = false) :
    read room stack .expect ('\x7b' :: rest) = .error (.tooDeep .object) := by
  rw [read, skipBlanks_of_not_blank (show isBlank '\x7b' = false from rfl)]
  simp only [hroom, Bool.false_eq_true, ↓reduceIte]

/-- Two braces are the object without fields. -/
theorem read_emptyObject (hroom : room.holds (stack.length + 1) = true) :
    read room stack .expect ('\x7b' :: '\x7d' :: rest) = read room stack (.place (.object [])) rest := by
  conv => lhs; rw [read, skipBlanks_of_not_blank (show isBlank '\x7b' = false from rfl)]
  simp only [hroom, ↓reduceIte]
  rw [skipBlanks_of_not_blank (show isBlank '\x7d' = false from rfl)]
  rfl

theorem skipBlanks_stringText (asciiOnly : Bool) (s : String) :
    skipBlanks (stringText asciiOnly s ++ rest) = stringText asciiOnly s ++ rest := by
  rw [stringText_append]
  exact skipBlanks_of_not_blank rfl

/-- A brace and a name open an object. -/
theorem read_openObject (hroom : room.holds (stack.length + 1) = true) (asciiOnly : Bool) (name : String) :
    read room stack .expect ('\x7b' :: (stringText asciiOnly name ++ ':' :: rest)) =
      read room (.fields [] name :: stack) .expect rest := by
  have hname := readName_stringText asciiOnly name rest
  have hskip := @skipBlanks_stringText (':' :: rest) asciiOnly name
  rw [stringText_append] at hname hskip ⊢
  conv => lhs; rw [read, skipBlanks_of_not_blank (show isBlank '\x7b' = false from rfl)]
  simp only [hroom, ↓reduceIte]
  rw [hskip]
  split
  · rename_i h
    cases h
  · split
    · rename_i h
      rw [hname] at h
      cases h
    · rename_i h
      rw [hname] at h
      cases h
      rfl

/-- A comma and a name go on with an object. -/
theorem read_nextField (h : ∀ c ∈ blanks, isBlank c = true) (asciiOnly : Bool) (next : String) :
    read room (.fields before name :: stack) (.place v)
        (',' :: (blanks ++ (stringText asciiOnly next ++ ':' :: rest))) =
      read room (.fields (setField name v before) next :: stack) .expect rest := by
  have hname : readName (skipBlanks (blanks ++ (stringText asciiOnly next ++ ':' :: rest))) = .ok (next, rest) := by
    rw [skipBlanks_append h, skipBlanks_stringText, readName_stringText]
  conv => lhs; rw [read, skipBlanks_of_not_blank (show isBlank ',' = false from rfl)]
  simp only
  split
  · rename_i h
    rw [hname] at h
    cases h
  · rename_i h
    rw [hname] at h
    cases h
    rfl

/-- The closing brace puts an object in its place. -/
theorem read_closeObject :
    read room (.fields before name :: stack) (.place v) ('\x7d' :: rest) =
      read room stack (.place (.object (setField name v before))) rest := by
  conv => lhs; rw [read, skipBlanks_of_not_blank (show isBlank '\x7d' = false from rfl)]
  rfl

end Schemata.Json

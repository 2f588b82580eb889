import Schemata.Number.Double

/-!
# JSON values

A value keeps the order of its fields, tells integers from doubles and truths from numbers, and has integers of any
size. The fields of an object are a list of pairs; `setField` keeps names distinct: the last value of a name wins at
the place of its first.
-/

namespace Schemata.Json

/-- A JSON value. -/
inductive Value where
  | null
  | bool (b : Bool)
  /-- A number without fraction or exponent. -/
  | int (n : Int)
  | double (d : Double)
  | string (s : String)
  | array (elements : List Value)
  | object (fields : List (String × Value))
  deriving Inhabited

/-- How many containers may be open at once where a value is read or written. -/
inductive Room where
  | unlimited
  | levels (count : Nat)
  deriving DecidableEq, Repr

/-- Whether so many containers may be open at once. -/
def Room.holds : Room → Nat → Bool
  | .unlimited, _ => true
  | .levels count, depth => depth ≤ count

/-- Named values in order. -/
abbrev Fields := List (String × Value)

/-- Gives a name its value: at its place if it is there, else at the end. -/
def setField {α : Type} (name : String) (value : α) : List (String × α) → List (String × α)
  | [] => [(name, value)]
  | (n, v) :: rest => if n = name then (n, value) :: rest else (n, v) :: setField name value rest

/-- The value of a name. -/
def field? (name : String) (fields : Fields) : Option Value := (fields.find? (·.1 = name)).map (·.2)

/-- The fields of a list of pairs, each name once: the last value at the place of the first. -/
def fieldsOf {α : Type} (pairs : List (String × α)) : List (String × α) :=
  pairs.foldl (fun fields p => setField p.1 p.2 fields) []

theorem map_fst_setField {α : Type} (name : String) (value : α) (fields : List (String × α)) :
    (setField name value fields).map (·.1) =
      if name ∈ fields.map (·.1) then fields.map (·.1) else fields.map (·.1) ++ [name] := by
  induction fields with
  | nil => simp [setField]
  | cons p rest ih =>
    obtain ⟨n, v⟩ := p
    by_cases h : n = name
    · simp [setField, h]
    · have h' : ¬ name = n := fun e => h e.symm
      simp only [setField, h, ↓reduceIte, List.map_cons, ih, List.mem_cons, h', false_or]
      split <;> simp_all

/-- Setting a field keeps names distinct. -/
theorem nodup_setField {α : Type} (name : String) (value : α) {fields : List (String × α)}
    (h : (fields.map (·.1)).Nodup) : ((setField name value fields).map (·.1)).Nodup := by
  rw [map_fst_setField]
  split
  · exact h
  · rename_i hn
    rw [List.nodup_append]
    refine ⟨h, by simp, fun a ha b hb => ?_⟩
    simp only [List.mem_singleton] at hb
    subst hb
    exact fun e => hn (e ▸ ha)

namespace Value

/-- A text, or null when there is none. -/
def ofText? : Option String → Value
  | some s => .string s
  | none => .null

/-- An integer, or null when there is none. -/
def ofInt? : Option Int → Value
  | some n => .int n
  | none => .null

end Value

end Schemata.Json

/-!
# Splitting texts

`splitOn` cuts a text at every occurrence of a mark, `cut` at the first one.
-/

namespace Schemata.Text

/-- The parts of a text between marks: one more than there are marks. -/
def splitOn (mark : Char) (cs : List Char) : List (List Char) :=
  cs.foldr (fun c parts =>
    if c = mark then [] :: parts
    else
      match parts with
      | part :: rest => (c :: part) :: rest
      | [] => [[c]]) [[]]

/-- What stands before the first mark and what stands after it. -/
def cut (mark : Char) (cs : List Char) : List Char × List Char :=
  (cs.takeWhile (· ≠ mark), (cs.dropWhile (· ≠ mark)).drop 1)

@[simp] theorem splitOn_nil (mark : Char) : splitOn mark [] = [[]] := rfl

@[simp] theorem splitOn_cons_self (mark : Char) (cs : List Char) : splitOn mark (mark :: cs) = [] :: splitOn mark cs := by
  simp [splitOn]

theorem splitOn_ne_nil (mark : Char) (cs : List Char) : splitOn mark cs ≠ [] := by
  cases cs with
  | nil => simp
  | cons c cs =>
    simp only [splitOn, List.foldr_cons]
    split
    · simp
    · split <;> simp

theorem splitOn_cons {mark c : Char} (h : c ≠ mark) (cs : List Char) :
    splitOn mark (c :: cs) = (c :: (splitOn mark cs).headD []) :: (splitOn mark cs).tail := by
  have hne := splitOn_ne_nil mark cs
  simp only [splitOn, List.foldr_cons, if_neg h]
  generalize hp : List.foldr _ _ cs = parts
  cases parts with
  | nil => exact absurd hp hne
  | cons part rest => rfl

/-- A text without marks is its only part. -/
theorem splitOn_of_not_mem {mark : Char} {cs : List Char} (h : mark ∉ cs) : splitOn mark cs = [cs] := by
  induction cs with
  | nil => rfl
  | cons c cs ih =>
    rw [List.mem_cons, not_or] at h
    rw [splitOn_cons (fun e => h.1 e.symm), ih h.2]; rfl

end Schemata.Text

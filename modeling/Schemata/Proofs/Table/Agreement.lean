import Mathlib.Data.Finmap
import Schemata.Proofs.Table.Holding

/-!
# Tables and finite maps

- A finite map says what a command is answered and what the map is after it (`Map.Answers`, `Map.after`): a scan is
  answered with the pairs whose keys have the start, in strictly ascending order. Contents with the same values give
  this answer and no other (`Contents.Shows.answers_iff`).
- A table in a file sends statements to an engine (`Engine.backend`). Of the engine it needs no more than
  `Engine.Lawful`: that its table is a map, and that it compares keys octet by octet. `Relation` is such an engine
  (`Relation.engine_lawful`).
- A table in memory and a table over any such engine answer all commands as the finite map does (`replies_agree`).
-/

namespace Schemata.Table

/-! ## Finite maps -/

/-- A finite map from keys to values. -/
abbrev Map := Finmap fun _ : Bytes => Bytes

namespace Map

/-- The map after a command. -/
def after (m : Map) : Command → Map
  | .put key value => m.insert key value
  | .delete key => m.erase key
  | .get _ | .scan _ => m

/-- What a command may be answered. -/
def Answers (m : Map) : (command : Command) → command.Answer → Prop
  | .get key, value => value = m.lookup key
  | .put _ _, _ | .delete _, _ => True
  | .scan start, rows =>
    rows.Pairwise (fun a b => a.1 < b.1) ∧ ∀ row, row ∈ rows ↔ start <+: row.1 ∧ m.lookup row.1 = some row.2

end Map

/-- The contents have the values of the map. -/
def Contents.Shows (s : Contents) (m : Map) : Prop := ∀ key, s.get? key = m.lookup key

namespace Contents.Shows

variable {s : Contents} {m : Map}

theorem empty : Contents.empty.Shows ∅ := fun key => by
  rw [Finmap.lookup_empty]
  rfl

variable (h : s.Shows m)
include h

theorem after (command : Command) : (s.answer command).2.Shows (m.after command) := by
  intro k
  cases command with
  | get key => exact h k
  | put key value =>
    rw [answer, get?_put, Map.after, h]
    by_cases hk : k = key
    · rw [if_pos hk, hk, Finmap.lookup_insert]
    · rw [if_neg hk, Finmap.lookup_insert_of_ne m hk]
  | delete key =>
    rw [answer, get?_delete, Map.after, h]
    by_cases hk : k = key
    · rw [if_pos hk, hk, Finmap.lookup_erase]
    · rw [if_neg hk, Finmap.lookup_erase_ne hk]
  | scan start => exact h k

/-- The contents' answer is the only one that the map allows. -/
theorem answers_iff {command : Command} {answer : command.Answer} :
    m.Answers command answer ↔ answer = (s.answer command).1 := by
  cases command with
  | get key => simp only [Map.Answers, Contents.answer, h key]
  | put key value => exact iff_of_true trivial rfl
  | delete key => exact iff_of_true trivial rfl
  | scan start =>
    have hmem : ∀ row, row ∈ s.scan start ↔ start <+: row.1 ∧ m.lookup row.1 = some row.2 := fun row => by
      rw [mem_scan, h]
    constructor
    · rintro ⟨hascending, hrows⟩
      exact eq_of_ascending_of_mem_iff hascending (s.ascending_scan start) fun row => (hrows row).trans (hmem row).symm
    · rintro rfl
      exact ⟨s.ascending_scan start, hmem⟩

end Contents.Shows

/-! ## One command after the other -/

/-- A command and how it ended. -/
abbrev Reply := (command : Command) × Except Trouble command.Answer

/-- The replies of a table to commands, one after the other. -/
def Backend.replies {σ : Type} (backend : Backend σ) : List Command → σ → List Reply
  | [], _ => []
  | command :: rest, state =>
    ⟨command, (backend.answer command state).1⟩ :: backend.replies rest (backend.answer command state).2

/-- Replies that a finite map allows: none is a failure, and each is an answer of the map as the commands before left
it. -/
inductive Map.Replies : Map → List Command → List Reply → Prop
  | nil {m} : Replies m [] []
  | cons {m command answer rest replies} (h : m.Answers command answer)
      (hrest : Replies (m.after command) rest replies) : Replies m (command :: rest) (⟨command, .ok answer⟩ :: replies)

/-- A table that holds a map's values gives the replies of the map. -/
theorem Backend.Represents.replies_iff {σ : Type} {backend : Backend σ} {holds : σ → Contents → Prop}
    (hb : backend.Represents holds) {commands : List Command} {state : σ} {s : Contents} {m : Map}
    (hs : holds state s) (hm : s.Shows m) {replies : List Reply} :
    m.Replies commands replies ↔ replies = backend.replies commands state := by
  induction commands generalizing state s m replies with
  | nil =>
    constructor
    · intro h
      cases h
      rfl
    · rintro rfl
      exact .nil
  | cons command rest ih =>
    obtain ⟨hanswer, hafter⟩ := hb command state s hs
    have hrest : ∀ replies, (m.after command).Replies rest replies ↔
        replies = backend.replies rest (backend.answer command state).2 := fun _ => ih hafter (hm.after command)
    rw [Backend.replies, hanswer]
    constructor
    · intro h
      cases h with
      | cons h h' => rw [hm.answers_iff.1 h, (hrest _).1 h']
    · rintro rfl
      exact .cons (hm.answers_iff.2 rfl) ((hrest _).2 rfl)

/-! ## Engines -/

/-- What executes the statements of a table in a file, each as a whole. -/
structure Engine (σ : Type) where
  /-- Whether a key is less than another. -/
  less : Bytes → Bytes → Bool
  /-- Inserts a row; on a conflict of keys it updates the value of the row that is there. -/
  upsert : (key value : Bytes) → σ → σ
  /-- Deletes the rows with a key. -/
  remove : (key : Bytes) → σ → σ
  /-- Selects the value where the key is the given one. -/
  value? : (key : Bytes) → σ → Option Bytes
  /-- Selects the rows whose keys are not less than a bound and less than the other bound, if there is one, ordered by
  key. -/
  range : (lower : Bytes) → (upper : Option Bytes) → σ → List Row

/-- A table over an engine: a statement for each command. -/
def Engine.backend {σ : Type} (engine : Engine σ) : Backend σ where
  answer
    | .get key, state => (.ok (engine.value? key state), state)
    | .put key value, state => (.ok (), engine.upsert key value state)
    | .delete key, state => (.ok (), engine.remove key state)
    | .scan start, state => (.ok (engine.range start start.successor? state), state)

/-- What is assumed of an engine, of which `kv state m` says that the rows of its table are those of the map. -/
structure Engine.Lawful {σ : Type} (engine : Engine σ) (kv : σ → Map → Prop) : Prop where
  /-- A proper start comes first. -/
  nil_less : ∀ b y, engine.less [] (b :: y) = true
  not_less_nil : ∀ x, engine.less x [] = false
  /-- Keys are compared from the left. -/
  cons_less : ∀ a x b y, engine.less (a :: x) (b :: y) = true ↔ a < b ∨ a = b ∧ engine.less x y = true
  upsert : ∀ {state m}, kv state m → ∀ key value, kv (engine.upsert key value state) (m.insert key value)
  remove : ∀ {state m}, kv state m → ∀ key, kv (engine.remove key state) (m.erase key)
  value? : ∀ {state m}, kv state m → ∀ key, engine.value? key state = m.lookup key
  /-- A row is selected when it is there and meets both bounds. -/
  mem_range : ∀ {state m}, kv state m → ∀ lower upper row, row ∈ engine.range lower upper state ↔
    m.lookup row.1 = some row.2 ∧ engine.less row.1 lower = false ∧ ∀ u, upper = some u → engine.less row.1 u = true
  /-- No row is selected twice. -/
  nodup_range : ∀ {state m}, kv state m → ∀ lower upper, (engine.range lower upper state).Nodup
  /-- No row stands behind one with a greater key. -/
  sorted_range : ∀ {state m}, kv state m → ∀ lower upper,
    (engine.range lower upper state).Pairwise fun a b => engine.less b.1 a.1 = false

namespace Engine.Lawful

variable {σ : Type} {engine : Engine σ} {kv : σ → Map → Prop} (h : engine.Lawful kv)
include h

theorem less_iff (a b : Bytes) : engine.less a b = true ↔ a < b := by
  induction a generalizing b with
  | nil =>
    cases b with
    | nil => simp [h.not_less_nil]
    | cons b y => simp [h.nil_less]
  | cons a x ih =>
    cases b with
    | nil => simp [h.not_less_nil]
    | cons b y => rw [h.cons_less, ih, List.cons_lt_cons_iff]

theorem not_less_iff (a b : Bytes) : engine.less a b = false ↔ ¬a < b := by
  rw [← h.less_iff, Bool.not_eq_true]

/-- The range of a start selects what the start's scan tells. -/
theorem range_eq {state : σ} {m : Map} (hm : kv state m) {s : Contents} (hs : s.Shows m) (start : Bytes) :
    engine.range start start.successor? state = s.scan start := by
  have hmem := h.mem_range hm start start.successor?
  apply eq_of_ascending_of_mem_iff _ (s.ascending_scan start)
  · intro row
    simp only [hmem, Contents.mem_scan, Bytes.isPrefix_iff_range, h.not_less_iff, h.less_iff, hs row.1, and_comm]
  · -- rows with one key are one row, so none stands behind a row with its own key
    refine ((h.sorted_range hm _ _).and (h.nodup_range hm _ _)).imp_of_mem fun {a b} ha hb hab => ?_
    obtain ⟨hle, hne⟩ := hab
    rcases Bytes.lt_or_eq_or_gt a.1 b.1 with hlt | heq | hgt
    · exact hlt
    · have ha' := ((hmem a).1 ha).1
      rw [heq, ((hmem b).1 hb).1, Option.some.injEq] at ha'
      exact absurd (Prod.ext heq ha'.symm) hne
    · exact absurd hgt ((h.not_less_iff _ _).1 hle)

/-- A table over an engine answers as the contents with the values of its map. -/
theorem represents : engine.backend.Represents fun state s => ∃ m, kv state m ∧ s.Shows m := by
  rintro command state s ⟨m, hm, hs⟩
  have hafter := hs.after command
  cases command with
  | get key => exact ⟨congrArg Except.ok ((h.value? hm key).trans (hs key).symm), m, hm, hafter⟩
  | put key value => exact ⟨rfl, _, h.upsert hm key value, hafter⟩
  | delete key => exact ⟨rfl, _, h.remove hm key, hafter⟩
  | scan start => exact ⟨congrArg Except.ok (h.range_eq hm hs start), m, hm, hafter⟩

end Engine.Lawful

/-! ## Relations as engines -/

namespace Relation

/-- The statements on the rows of a sound file. -/
def engine : Engine (List Row) where
  less := Bytes.before
  upsert key value rows := upsert rows key value
  remove key rows := delete rows key
  value? key rows := get? rows key
  range lower upper rows :=
    (rows.filter fun row => !row.1.before lower && upper.all (row.1.before ·)).mergeSort fun a b => !b.1.before a.1

/-- The rows are those of the map. -/
def Shows (rows : List Row) (m : Map) : Prop := ∃ s, Holds ⟨rows, false⟩ s ∧ s.Shows m

theorem shows_nil : Shows [] ∅ := ⟨_, holds_empty, .empty⟩

/-- A sound file answers with the statements of the engine. -/
theorem answer_eq (command : Command) (rows : List Row) : backend.answer command ⟨rows, false⟩ =
    ((engine.backend.answer command rows).1, ⟨(engine.backend.answer command rows).2, false⟩) := by
  cases command with
  | scan start =>
    have hrange : inRange start = fun key => !key.before start && start.successor?.all (key.before ·) := by
      funext key
      rw [inRange]
      cases start.successor? <;> rfl
    simp only [backend, scan, hrange]
    rfl
  | _ => rfl

theorem engine_lawful : engine.Lawful Shows where
  nil_less _ _ := rfl
  not_less_nil x := by cases x <;> rfl
  cons_less a x b y := by simp only [engine, Bytes.before_iff_lt, List.cons_lt_cons_iff]
  upsert := fun ⟨s, h, hs⟩ key value => ⟨s.put key value, h.upsert key value, hs.after (.put key value)⟩
  remove := fun ⟨s, h, hs⟩ key => ⟨s.delete key, h.delete key, hs.after (.delete key)⟩
  value? := fun ⟨s, h, hs⟩ key => (h.get?_eq key).trans (hs key)
  mem_range := by
    rintro rows m ⟨s, h, hs⟩ lower upper row
    rw [← hs row.1, ← Contents.mem_rows, ← h.perm.mem_iff]
    cases upper <;> simp [engine]
  nodup_range := fun ⟨_, h, _⟩ _ _ =>
    (List.mergeSort_perm _ _).nodup_iff.2 ((List.Nodup.of_map _ h.nodup_keys).filter _)
  sorted_range := fun _ lower upper => by simpa [engine] using sorted_mergeSort _

end Relation

/-! ## Tables in memory and in a file -/

/-- **The tables are one ordered map.** Whatever commands they are given, a table in memory and a table over any lawful
engine give the same replies from empty on, and these are the only ones that the finite map allows. -/
theorem replies_agree {σ : Type} {engine : Engine σ} {kv : σ → Map → Prop} (h : engine.Lawful kv) {state : σ}
    (hnew : kv state ∅) (commands : List Command) :
    engine.backend.replies commands state = Indexed.backend.replies commands .empty ∧
      Relation.backend.replies commands .empty = Indexed.backend.replies commands .empty ∧
      ∀ replies, Map.Replies ∅ commands replies ↔ replies = Indexed.backend.replies commands .empty := by
  have hmemory : ∀ replies, Map.Replies ∅ commands replies ↔ replies = Indexed.backend.replies commands .empty :=
    fun _ => Indexed.represents.replies_iff Indexed.holds_empty .empty
  have hengine : Map.Replies ∅ commands (engine.backend.replies commands state) :=
    (h.represents.replies_iff ⟨∅, hnew, .empty⟩ .empty).2 rfl
  have hfile : Map.Replies ∅ commands (Relation.backend.replies commands .empty) :=
    (Relation.represents.replies_iff Relation.holds_empty .empty).2 rfl
  exact ⟨(hmemory _).1 hengine, (hmemory _).1 hfile, hmemory⟩

/-- An empty key and an empty start, and starts whose ranges have no end. -/
def Sample.edges : List Command :=
  [.put [255, 255, 0] [2], .put [] [0], .put [255] [1], .put [254, 7] [3], .scan [], .scan [255, 255], .put [255] [4],
    .scan [255], .scan [254], .delete [], .delete [], .get [], .scan []]

theorem replies_agree_edges :
    Relation.engine.Lawful Relation.Shows ∧ Relation.Shows [] ∅ ∧
      ∃ replies, Relation.engine.backend.replies Sample.edges [] = replies ∧ Map.Replies ∅ Sample.edges replies ∧
        replies.drop 4 = [⟨.scan [], .ok [([], [0]), ([254, 7], [3]), ([255], [1]), ([255, 255, 0], [2])]⟩,
          ⟨.scan [255, 255], .ok [([255, 255, 0], [2])]⟩, ⟨.put [255] [4], .ok ()⟩,
          ⟨.scan [255], .ok [([255], [4]), ([255, 255, 0], [2])]⟩, ⟨.scan [254], .ok [([254, 7], [3])]⟩,
          ⟨.delete [], .ok ()⟩, ⟨.delete [], .ok ()⟩, ⟨.get [], .ok none⟩,
          ⟨.scan [], .ok [([254, 7], [3]), ([255], [4]), ([255, 255, 0], [2])]⟩] := by
  obtain ⟨hengine, -, hmap⟩ := replies_agree Relation.engine_lawful Relation.shows_nil Sample.edges
  exact ⟨Relation.engine_lawful, Relation.shows_nil, _, hengine, (hmap _).2 rfl, rfl⟩

end Schemata.Table

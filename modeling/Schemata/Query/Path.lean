import Schemata.Json.Value
import Schemata.Query.Token

/-!
# Paths into a document

A `Path` leads from a node to the nodes it matches; a `Condition` holds of a node or not. `Path.isDefinite` singles out
the paths that can match at most one node, `Path.beginsWithSort` those that sort before they go anywhere, and
`Condition.namesDocument` the conditions that speak of the document.
-/

namespace Schemata.Query

mutual

/-- A way from a node to other nodes. -/
inductive Path where
  | root
  | here
  | parent
  /-- The count of parts of a text, an array or an object. -/
  | length
  | keys
  /-- Every part of an array or object. -/
  | all
  /-- The fields of these names, in this order. -/
  | fields (names : List String)
  /-- The elements at these places, counted from the end if negative, in this order. -/
  | indices (places : List Int)
  /-- Every `step`-th element from `start` up to `stop`. -/
  | slice (start stop step : Option Int)
  /-- The second path from each match of the first. -/
  | child (first second : Path)
  /-- The second path from each match of the first and from everything inside it. -/
  | descend (first second : Path)
  | filter (condition : Condition)
  /-- The array in order; of an object the names in order, if there are no keys. -/
  | sorted (keys : SortKeys)
  /-- The matches of the first path from which the second has a match. -/
  | having (first second : Path)
  /-- The matches of the first path from which the second has none. -/
  | lacking (first second : Path)

/-- What an array is sorted by: each key in turn, or the elements themselves when there is none. -/
inductive SortKeys where
  | done
  /-- A key with its direction, before others. -/
  | key (path : Path) (descending : Bool) (rest : SortKeys)

/-- A test of a node. -/
inductive Condition where
  | present (path : Path)
  | absent (path : Path)
  /-- A match of the path compares so with a value. -/
  | comparesTo (path : Path) (relation : Relation) (value : Json.Value)
  /-- A match of the path compares so with a match of another. -/
  | compares (path : Path) (relation : Relation) (other : Path)
  | both (first second : Condition)
  | either (first second : Condition)

end

/-- Whether the path is of a kind that matches at most one node: the document, the node itself, a sort, one field, one
index, and steps of such. A field named `*` is not counted as one. -/
def Path.isDefinite : Path → Bool
  | .root => true
  | .here => true
  | .sorted _ => true
  | .fields names => match names with
    | [name] => name ≠ "*"
    | _ => false
  | .indices places => places.length == 1
  | .child first second => first.isDefinite && second.isDefinite
  | _ => false

/-- Whether the first thing that the path does is to sort what it starts from. -/
def Path.beginsWithSort : Path → Bool
  | .sorted _ => true
  | .child first _ => first.beginsWithSort
  | .descend first _ => first.beginsWithSort
  | .having first _ => first.beginsWithSort
  | .lacking first _ => first.beginsWithSort
  | _ => false

mutual

/-- Whether the document occurs in the path, be it in a condition or in a sort key. -/
def Path.namesDocument : Path → Bool
  | .root => true
  | .child first second => first.namesDocument || second.namesDocument
  | .descend first second => first.namesDocument || second.namesDocument
  | .having first second => first.namesDocument || second.namesDocument
  | .lacking first second => first.namesDocument || second.namesDocument
  | .filter condition => condition.namesDocument
  | .sorted keys => keys.namesDocument
  | _ => false

/-- Whether the document occurs in a sort key. -/
def SortKeys.namesDocument : SortKeys → Bool
  | .done => false
  | .key path _ rest => path.namesDocument || rest.namesDocument

/-- Whether the document occurs in the condition. -/
def Condition.namesDocument : Condition → Bool
  | .present path => path.namesDocument
  | .absent path => path.namesDocument
  | .comparesTo path _ _ => path.namesDocument
  | .compares path _ other => path.namesDocument || other.namesDocument
  | .both first second => first.namesDocument || second.namesDocument
  | .either first second => first.namesDocument || second.namesDocument

end

end Schemata.Query

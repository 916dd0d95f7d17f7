import PipeScript.Yaml.Kind

/-!
# Nodes

The tree that the tokens of a document make up.  Lists and dictionaries are numbered, and an alias
gives the anchored node once more, with the numbers it has, so equal numbers mean the same container.
Merge keys are resolved as soon as a dictionary is complete: the items of the merged dictionaries come
first, the own ones after them.  Values are trees, so a container that contains itself has none and is
refused.
-/

namespace PipeScript.Yaml

inductive Node where
  | scalar (kind : Kind) (text : List Char)
  | list (node : Nat) (kind : Kind) (items : List Node)
  | dict (node : Nat) (kind : Kind) (pairs : List (Node × Node))
  /-- A dictionary that merges something that is none. -/
  | unmergeable

namespace Node

/-- The node of nothing. -/
def empty : Node := .scalar .null []

def isMergeKey : Node → Bool
  | .scalar .merge _ => true
  | _ => false

/-- The pairs of a dictionary that is merged into another. -/
def mergedPairs? : Node → Option (List (Node × Node))
  | .dict _ _ pairs => some pairs
  | _ => none

/-- The pairs that an item under a merge key brings: those of a dictionary, or of a list of
dictionaries with the last one first. -/
def broughtPairs? : Node → Option (List (Node × Node))
  | .list _ _ items => do return (← items.mapM mergedPairs?).reverse.flatten
  | node => node.mergedPairs?

/-- The dictionary of given pairs, with merge keys resolved. -/
def ofPairs (node : Nat) (kind : Kind) (pairs : List (Node × Node)) : Node :=
  let (merges, own) := pairs.partition fun (key, _) => key.isMergeKey
  match merges.mapM fun (_, item) => item.broughtPairs? with
  | some brought => .dict node kind (brought.flatten ++ own)
  | none => .unmergeable

end Node

end PipeScript.Yaml

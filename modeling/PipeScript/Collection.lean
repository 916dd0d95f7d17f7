import PipeScript.Fault
import PipeScript.Json.Printer

/-!
# Collections

Lists and dictionaries seen alike, as entries: a key and an item.  The keys of a list are its
positions.  Rebuilding puts entries back into a container of the same kind: a list closes its gaps, a
dictionary keeps its keys.
-/

namespace PipeScript

/-- A list or a dictionary with items of a type. -/
inductive Collection (α : Type) where
  | sequence (items : List α)
  | mapping (entries : Entries α)

namespace Collection

variable {α : Type}

/-- The key of a position. -/
def position (i : Nat) : Scalar :=
  .number (.int i)

/-- The entries of a collection, in order. -/
def entries : Collection α → List (Scalar × α)
  | .sequence items => items.zipIdx.map fun (item, i) => (position i, item)
  | .mapping entries => entries

def size : Collection α → Nat
  | .sequence items => items.length
  | .mapping entries => entries.length

/-- A container of the same kind with other entries. -/
def rebuild (c : Collection α) (pairs : List (Scalar × Value)) : Value :=
  match c with
  | .sequence _ => .list (pairs.map (·.2))
  | .mapping _ => .dict (Entries.ofPairs (pairs.map fun (key, item) => (.text key.keyText, item)))

end Collection

/-- The collection that a value is. -/
def Value.collection? : Value → Option (Collection Value)
  | .scalar _ => none
  | .list items => some (.sequence items)
  | .dict entries => some (.mapping entries)

end PipeScript

import PipeScript.Collection
import PipeScript.Path.Access

/-!
# Shared values

A variable may hold a list or a dictionary that other places reach as well: another variable of the
same document, or a loop that is under way.  A write inside it is seen from all of them.  A shared
value is a value whose containers carry the number of their node; equal numbers mean the same
container.  `Shared.revise` carries a write along a path over to a shared value, and `Shared.adopt`
brings another shared value up to date with it.
-/

namespace PipeScript

/-- A value with numbered containers.  What no other place can reach is plain. -/
inductive Shared where
  | plain (v : Value)
  | list (node : Nat) (items : List Shared)
  | dict (node : Nat) (entries : List (Scalar × Shared))

namespace Shared

instance : Inhabited Shared := ⟨.plain .null⟩

mutual

/-- The value at this moment. -/
def toValue : Shared → Value
  | .plain v => v
  | .list _ items => .list (itemValues items)
  | .dict _ entries => .dict (entryValues entries)

def itemValues : List Shared → List Value
  | [] => []
  | item :: rest => toValue item :: itemValues rest

def entryValues : List (Scalar × Shared) → List (Scalar × Value)
  | [] => []
  | (key, item) :: rest => (key, toValue item) :: entryValues rest

end

mutual

/-- A value with fresh numbers for its containers, from a counter. -/
def number : Value → StateM Nat Shared
  | .scalar s => pure (.plain (.scalar s))
  | .list items => do
    let node ← modifyGet fun n => (n, n + 1)
    return .list node (← numberItems items)
  | .dict entries => do
    let node ← modifyGet fun n => (n, n + 1)
    return .dict node (← numberEntries entries)

def numberItems : List Value → StateM Nat (List Shared)
  | [] => pure []
  | item :: rest => do
    let first ← number item
    return first :: (← numberItems rest)

def numberEntries : List (Scalar × Value) → StateM Nat (List (Scalar × Shared))
  | [] => pure []
  | (key, item) :: rest => do
    let first ← number item
    return (key, first) :: (← numberEntries rest)

end

mutual

/-- The container with a number, inside a shared value. -/
def find? (node : Nat) : Shared → Option Shared
  | .plain _ => none
  | .list n items => if n = node then some (.list n items) else findInItems? node items
  | .dict n entries => if n = node then some (.dict n entries) else findInEntries? node entries

def findInItems? (node : Nat) : List Shared → Option Shared
  | [] => none
  | item :: rest => (find? node item).or (findInItems? node rest)

def findInEntries? (node : Nat) : List (Scalar × Shared) → Option Shared
  | [] => none
  | (_, item) :: rest => (find? node item).or (findInEntries? node rest)

end

mutual

/-- Replaces every container that also occurs in `source` by its state there. -/
def adopt (source : Shared) : Shared → Shared
  | .plain v => .plain v
  | .list n items => (source.find? n).getD (.list n (adoptItems source items))
  | .dict n entries => (source.find? n).getD (.dict n (adoptEntries source entries))

def adoptItems (source : Shared) : List Shared → List Shared
  | [] => []
  | item :: rest => adopt source item :: adoptItems source rest

def adoptEntries (source : Shared) : List (Scalar × Shared) → List (Scalar × Shared)
  | [] => []
  | (key, item) :: rest => (key, adopt source item) :: adoptEntries source rest

end

/-- Whether a token names the item at an index exactly. -/
def namesExactly (token : Value) (index : Nat) : Bool :=
  match Path.exactIndex? token with
  | .ok (some i) => i = index
  | _ => false

/-- The state of a shared value after a write along a path turned its value into `new`.  Containers
that were there keep their number; what the write put in gets fresh ones. -/
def revise (old : Shared) (new : Value) : Path → StateM Nat Shared
  | [] => number new
  | token :: rest =>
    match old, new with
    | .list node items, .list values => do
      let padded := items ++ (values.drop items.length).map .plain
      match Path.writeIndex? token with
      | .error _ | .ok none => return .list node padded
      | .ok (some index) =>
        match padded[index]?, values[index]? with
        | some item, some value =>
          -- a write goes on inside the item that its token names exactly, and replaces any other
          let child := if namesExactly token index then item else .plain .null
          return .list node (padded.set index (← revise child value rest))
        | _, _ => return .list node padded
    | .dict node entries, .dict values => do
      let key : Scalar := .text token.asText
      match Entries.get? key values with
      | none => return .dict node entries
      | some value =>
        let child := (Entries.get? key entries).getD (.plain .null)
        return .dict node (Entries.insert key (← revise child value rest) entries)
    | .plain (.scalar s), .scalar t => return if s = t then old else .plain (.scalar t)
    | _, new => number new

/-- The collection that a shared value is. -/
def collection? : Shared → Option (Collection Shared)
  | .list _ items => some (.sequence items)
  | .dict _ entries => some (.mapping entries)
  | .plain (.list items) => some (.sequence (items.map .plain))
  | .plain (.dict entries) => some (.mapping (Entries.mapItems .plain entries))
  | .plain (.scalar _) => none

end Shared

end PipeScript

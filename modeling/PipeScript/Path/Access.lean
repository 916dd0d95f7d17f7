import PipeScript.Path.Basic

/-!
# Reading and writing along a path

`Value.getAt?` walks a path down a value; a stored null is found, and a step that leads nowhere is
not.  `Value.setAt` assigns at the end of a path and creates what is missing on the way: a list where
the next token is numeric, a dictionary elsewhere.  Both decode texts that are JSON when they pass
through them.  A write that fails half way keeps what it has created, decoded or padded before, so
it answers the value as it was left together with the fault.
-/

namespace PipeScript

open PipeScript.Path

/-- The length beyond which a list does not grow.  It is a limit of the memory of the host, and nothing
in the language says it; the bound stands for one that every host has. -/
def listCapacity : Nat := 0x40000000

namespace Value

/-- The part that a token names in a read. -/
def part? (container token : Value) : Except Fault (Option Value) :=
  match container with
  | .list items => do return (← readIndex? items.length token).bind fun i => items[i]?
  | .dict entries => .ok (Entries.get? (.text token.asText) entries)
  | .text s => do
    return (← exactIndex? token).bind fun i => s.toList[i]?.map fun c => .text (String.singleton c)
  | _ => .ok none

/-- The part that a token names exactly, as a write descends. -/
def exactPart? (container token : Value) : Except Fault (Option Value) :=
  match container with
  | .list items => do return (← exactIndex? token).bind fun i => items[i]?
  | container => container.part? token

/-- The value at the end of a path. -/
def getAt? (v : Value) : Path → Except Fault (Option Value)
  | [] => .ok (some v)
  | token :: rest =>
    if v.isNull then .ok none
    else
      match v.part? token with
      | .error fault => .error fault
      | .ok none => .ok none
      | .ok (some part) => getAt? part.decoded rest

/-- A list with an item at an index, padded with nulls as far as needed. -/
def putItem (items : List Value) (index : Nat) (item : Value) : List Value :=
  (items ++ List.replicate (index + 1 - items.length) Value.null).set index item

/-- A container with a part under a token. -/
def put (container token part : Value) : Except Fault Value :=
  match container with
  | .list items =>
    match writeIndex? token with
    | .error fault => .error fault
    | .ok none => .error (.badListIndex token.asText)
    | .ok (some index) =>
      if index < max items.length listCapacity then .ok (.list (putItem items index part))
      else .error (.listTooLong (0x8000000000000000 + items.length ≤ index + 1))
  | .dict entries => .ok (.dict (Entries.insert (.text token.asText) part entries))
  | other => .error (.notWritable token.asText (other.kindName "null"))

/-- A container with a part under a token, or as it was when the token cannot be written. -/
def putOrKeep (container token part : Value) : Value :=
  match container.put token part with
  | .ok updated => updated
  | .error _ => container

/-- The empty container in which a token can be written. -/
def emptyFor (token : Value) : Value :=
  if isNumeric token then .list [] else .dict []

/-- The value as a write left it, and the fault that ended the write if one did. -/
abbrev Written := Value × Option Fault

/-- Puts a part under a token and goes on inside it. -/
def putThen (container token part : Value) (descend : Value → Written) : Written :=
  match container.put token part with
  | .error fault => (container, some fault)
  | .ok updated =>
    let (part, fault) := descend part
    (updated.putOrKeep token part, fault)

/-- Assigns inside a value that is there. -/
def setInside (container : Value) : Path → Value → Written
  | [], _ => (container, some .indexMissing)
  | [token], value =>
    match container.put token value with
    | .ok updated => (updated, none)
    | .error fault => (container, some fault)
  | token :: next :: rest, value =>
    match container.exactPart? token with
    | .error fault => (container, some fault)
    | .ok none =>
      container.putThen token (emptyFor next) fun part => setInside part (next :: rest) value
    | .ok (some .null) =>
      container.putThen token (emptyFor next) fun part => setInside part (next :: rest) value
    | .ok (some (.text s)) =>
      match Json.parse? s with
      | some part => container.putThen token part fun part => setInside part (next :: rest) value
      | none => (container, (setInside (.text s) (next :: rest) value).2)
    | .ok (some part) =>
      let (part, fault) := setInside part (next :: rest) value
      (container.putOrKeep token part, fault)

/-- Assigns at the end of a path.  A null is replaced by a container unless the write fails. -/
def setAt (collection : Value) (path : Path) (value : Value) : Written :=
  match collection, path with
  | collection, [] => (collection, some .indexMissing)
  | .null, token :: rest =>
    match setInside (emptyFor token) (token :: rest) value with
    | (updated, none) => (updated, none)
    | (_, some fault) => (.null, some fault)
  | collection, path => setInside collection path value

end Value

end PipeScript

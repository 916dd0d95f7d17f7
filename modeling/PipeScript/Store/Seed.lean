import PipeScript.Document
import PipeScript.Store.Basic
import PipeScript.Text.Lines

/-!
# Seeding variables

A document may bring variables: a dictionary with a section for the local and one for the global
variables.  A section is a dictionary; a list of pairs will do as well, and whatever else can be walked
through in parts of two.  Null, false, zero and the empty text are empty sections.  Objects of other
kinds are taken to be neither empty nor open to a walk.
-/

namespace PipeScript

namespace Shared

/-- What walking through a value meets: items, keys or characters. -/
def elements? : Shared → Option (List Shared)
  | .list _ items => some items
  | .dict _ entries => some (entries.map fun (key, _) => .plain (.scalar key))
  | .plain (.list items) => some (items.map .plain)
  | .plain (.dict entries) => some (entries.map fun (key, _) => .plain (.scalar key))
  | .plain (.text s) => some (s.toList.map fun c => .plain (.text (String.singleton c)))
  | .plain (.scalar _) => none

/-- The entry that a part of a section makes, at its position. -/
def entryAt (position : Nat) (part : Shared) : Except SeedFault (Scalar × Shared) :=
  match part.elements? with
  | none => .error (.notAPair position)
  | some [key, item] =>
    match key.toValue with
    | .scalar s => .ok (s, item)
    | .list _ => .error (.badKey "list")
    | .dict _ => .error (.badKey "dict")
  | some elements => .error (.pairLength position elements.length)

/-- The entries that parts make, from a position on. -/
def entriesFrom (position : Nat) : List Shared → Except SeedFault (List (Scalar × Shared))
  | [] => .ok []
  | part :: rest => do
    let entry ← entryAt position part
    return entry :: (← entriesFrom (position + 1) rest)

end Shared

namespace Scalar

/-- How a value without parts is called where parts were expected. -/
def partlessKind : Scalar → String
  | .null => "NoneType"
  | .bool _ => "bool"
  | .number (.int _) => "int"
  | .number (.float _) => "float"
  | .text _ => "str"
  | .moment (.other o) => o.kind
  | .moment m => "datetime." ++ m.kind

/-- Whether a section is empty that is no more than this. -/
def isEmptySection : Scalar → Bool
  | .null | .bool false => true
  | .number n => n.isZero
  | .text s => s.isEmpty
  | _ => false

end Scalar

namespace Store

/-- The variables of a section. -/
def sectionEntries (part : Shared) : Except SeedFault (Entries Shared) :=
  match part with
  | .dict _ entries => .ok entries
  | .plain (.dict entries) => .ok (Entries.mapItems .plain entries)
  | .plain (.scalar s) =>
    if s.isEmptySection then .ok []
    else
      match part.elements? with
      | none => .error (.notEntries s.partlessKind)
      | some parts => (Shared.entriesFrom 0 parts).map Entries.ofPairs
  | _ => (Shared.entriesFrom 0 (part.elements?.getD [])).map Entries.ofPairs

/-- A section of a document; empty when it is left out. -/
def sectionOf (name : String) (entries : Entries Shared) : Shared :=
  (entries.get? (.text name)).getD (.plain .null)

/-- The store that the text of a document seeds; `name` is the name of its file. -/
def ofDocument (yaml : Yaml.Loader) (name text : String) : Except Fault Store := do
  let format := (DocumentFormat.ofPath? name).or (DocumentFormat.ofText? text)
  let (data, nextNode) ← Document.readShared yaml format text
  match data with
  | .dict _ entries =>
    let locals ← (sectionEntries (sectionOf "local" entries)).mapError .seed
    let globals ← (sectionEntries (sectionOf "global" entries)).mapError .seed
    return ⟨locals, globals, [], nextNode⟩
  | _ => .error (.seed (.notAMapping name))

/-- The store that a file seeds, by its name and its contents. -/
def load (yaml : Yaml.Loader) (name contents : String) : Except Fault Store :=
  ofDocument yaml name (Text.unifyLineEnds contents)

end Store

end PipeScript

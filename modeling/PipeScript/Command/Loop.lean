import PipeScript.Command.Invocation

/-!
# Loops

A loop runs its command once per entry of a collection, with the item and its key filled in.  Three
of the loops run every entry and differ only in what they make of the outputs (`runEntries`);
`/find` stops at the first output that says yes.
-/

namespace PipeScript

namespace Command

/-- The collection that a loop walks. -/
def collection (name : String) (inv : Invocation) : Action (Collection Shared) := do
  let data := (← Action.store).iterated (inv.argumentValue "list") (inv.argument? "var")
    (inv.argument? "globalvar")
  match data.collection? with
  | some c => return c
  | none => throw (.noCollection name)

/-- The command of a loop for one entry. -/
def entryCommand (template : String) (key : Scalar) (itemText : String) : String :=
  Template.fillAll template [("item", itemText), ("index", key.asText)]

/-- Runs the command of a loop for one entry. -/
def runEntry (nested : Nested) (template : String) (entry : Scalar × Shared) : Action String := do
  let itemText ← Action.write Value.placeholderText (← Action.current entry.2)
  nested (entryCommand template entry.1 itemText)

/-- Runs the command of a loop for every entry, in order, and answers the outputs. -/
def runEntries (nested : Nested) (template : String) (entries : List (Scalar × Shared)) :
    Action (List String) :=
  entries.mapM (runEntry nested template)

/-- `/foreach`: the last output. -/
def forEach (nested : Nested) (inv : Invocation) : Action String := do
  let c ← collection "foreach" inv
  let outputs ← runEntries nested inv.value c.entries
  return outputs.getLast?.getD ""

/-- `/map`: a container of the outputs, decoded. -/
def mapItems (nested : Nested) (inv : Invocation) : Action String := do
  let c ← collection "map" inv
  let outputs ← runEntries nested inv.value c.entries
  let keys := c.entries.map (·.1)
  Action.write Value.json (c.rebuild (keys.zip (outputs.map decodedText)))

/-- `/filter`: a container of the entries whose output says yes. -/
def filter (nested : Nested) (inv : Invocation) : Action String := do
  let c ← collection "filter" inv
  let outputs ← runEntries nested inv.value c.entries
  let kept := (c.entries.zip outputs).filter fun (_, output) => saysYes output
  let items ← kept.mapM fun ((key, item), _) => do
    let item ← Action.current item
    return (key, item)
  Action.write Value.json (c.rebuild items)

/-- The first entry whose output says yes, as it is after its command has run. -/
def findEntry (nested : Nested) (template : String) : List (Scalar × Shared) → Action String
  | [] => return ""
  | entry :: rest => do
    let output ← runEntry nested template entry
    if saysYes output then Action.write Value.pipeText (← Action.current entry.2)
    else findEntry nested template rest

/-- `/find`: the first item whose output says yes. -/
def find (nested : Nested) (inv : Invocation) : Action String := do
  let c ← collection "find" inv
  findEntry nested inv.value c.entries

end Command

end PipeScript

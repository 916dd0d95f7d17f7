import PipeScript.Command.Invocation

/-!
# Structured data commands

Slices, dictionaries from pairs, shuffling, pretty printing, and access along a path.
-/

namespace PipeScript

namespace Command

/-- A bound of a slice as a position between 0 and a length: cut to an integer, counted from the end
when negative, and NaN as zero. -/
def slicePosition (length : Nat) (bound : Number) : Nat :=
  match bound with
  | .float .nan => 0
  | .float (.infinite negative) => if negative then 0 else length
  | n =>
    let offset := n.truncate?.getD 0
    if offset < 0 then ((length : Int) + offset).toNat else min offset.toNat length

/-- The items between two positions. -/
def between {α : Type} (low high : Nat) (items : List α) : List α :=
  (items.take high).drop low

/-- The end of a slice: given as such, or as a length from the start. -/
def sliceEnd? (inv : Invocation) : Action (Option Number) := do
  match inv.argument? "end", inv.given? "length" with
  | some stop, _ => return some (.ofText stop)
  | none, some length =>
    match (inv.argumentValue "start").asNumber.add? (.ofText length) with
    | some n => return some n
    | none => throw .doubleOverflow
  | none, none => return none

/-- The two positions of a slice of a length. -/
def sliceRange (inv : Invocation) (length : Nat) : Action (Nat × Nat) := do
  let stop ← sliceEnd? inv
  let low := ((inv.argument? "start").map fun s => slicePosition length (.ofText s)).getD 0
  let high := (stop.map (slicePosition length)).getD length
  return (low, high)

/-- `/slice`: a part of a list or a text. -/
def slice (inv : Invocation) : Action String := do
  let data := (← inv.structured (.text inv.value)).toValue
  let data ← if data.isNull then inv.firstValue else pure data
  match data with
  | .list items =>
    let (low, high) ← sliceRange inv items.length
    Action.write Value.pipeText (.list (between low high items))
  | .text s =>
    let chars := s.toList
    let (low, high) ← sliceRange inv chars.length
    return String.ofList (between low high chars)
  | other => throw (.notSliceable (other.kindName "NoneType"))

/-- Takes items one by one from places that a seed chooses; `fuel` is their number. -/
def drawItems {α : Type} : (fuel seed : Nat) → List α → List α
  | 0, _, items => items
  | fuel + 1, seed, items =>
    let place := (seed / 65536) % items.length
    match items[place]? with
    | some item => item :: drawItems fuel ((seed * 1103515245 + 12345) % 0x80000000) (items.eraseIdx place)
    | none => items

/-- `/shuffle`: the items of a list in another order. -/
def shuffle (inv : Invocation) : Action String := do
  match Store.firstTruthy [(Store.literalSource (.text inv.value)).map Shared.structured] with
  | .plain (.list items) =>
    let seed := (← get).seed
    modify fun m => { m with seed := (m.seed * 22695477 + 1) % 0x80000000 }
    Action.write Value.json (.list (drawItems items.length seed items))
  | _ => throw (.noCollection "shuffle")

/-- The pair that an entry of a list is: what is missing is null. -/
def pairOf (entry : Value) : Action (Scalar × Value) := do
  match entry with
  | .list parts =>
    let key ← Action.spell (parts.headD Value.null)
    return (.text key, (parts[1]?).getD Value.null)
  | other => throw (.notPairs (← Action.write Value.json other))

/-- `/dict`: a dictionary from a list of pairs. -/
def pairs (inv : Invocation) : Action String := do
  match (← inv.structured (.text inv.value)).toValue with
  | .list items =>
    let entries ← items.mapM pairOf
    Action.write Value.json (.dict (Entries.ofPairs entries))
  | _ => throw (.noCollection "dict")

/-- `/json-pretty`: JSON with one entry per line. -/
def prettyJson (inv : Invocation) : Action String := do
  match Json.parse? inv.value with
  | some v => Action.write (Json.render 4) v
  | none => throw .notJson

/-- `/getat`: the value at the end of a path; a stored null is written out. -/
def getAt (inv : Invocation) : Action String := do
  let path ← inv.path
  let data := (← inv.structured (.text inv.value)).toValue
  if data.isNull then throw (.noCollection "getat")
  else
    match ← Action.ofExcept (data.getAt? path) with
    | none => return ""
    | some .null => return "null"
    | some v => Action.write Value.pipeText v

/-- `/setat`: writes at the end of a path and stores the result in the variables named.  What a failed
write has changed inside a shared value stays changed. -/
def setAt (inv : Invocation) : Action String := do
  let path ← inv.path
  let data ← inv.structured (inv.argumentValue "value")
  let (updated, fault) := data.toValue.setAt path (decodedText inv.value)
  Action.modifyStore (·.revise data updated path)
  match fault with
  | some fault => throw fault
  | none =>
    let text ← Action.write Value.pipeText updated
    if let some name := inv.given? "var" then Action.modifyStore (·.writeLocal name text)
    if let some name := inv.given? "globalvar" then Action.modifyStore (·.writeGlobal name text)
    return text

end Command

end PipeScript

import PipeScript.Command.Invocation
import PipeScript.Pattern.Replacement
import PipeScript.Text.Search

/-!
# Text commands

Splitting, joining, trimming and replacing.  What to look for is a fixed text or a pattern between
slashes; `/replaceAll` takes a text without slashes as a pattern, too, and `/replace` looks for it
with the pattern that quotes it.
-/

namespace PipeScript

namespace Command

/-- A pattern with modes in force from the start. -/
def readPattern (mode : Pattern.Mode) (source : String) : Action Pattern :=
  match Pattern.read mode source with
  | .ok p => pure p
  | .error e => throw (.badPattern (e.message source.toList))

/-- The text that a command works on: that of the stored value or of the value given. -/
def subjectText (inv : Invocation) : Action String := do
  match ← inv.firstValue with
  | .null => return ""
  | v => Action.spell v

/-- The pieces of a text at what is looked for; nothing to look for separates all characters. -/
def pieces (find text : String) : Action (List String) := do
  match PatternLiteral.ofText? find with
  | some literal =>
    let p ← readPattern literal.mode literal.source
    return (p.split text.toList).map String.ofList
  | none =>
    if find = "" then return text.toList.map String.singleton
    else return Text.cutAt find text

/-- `/split`: the list of the pieces of a text. -/
def split (inv : Invocation) : Action String := do
  let text ← subjectText inv
  let parts ← pieces ((inv.argument? "find").getD ",") text
  let parts := if saysYes ((inv.argument? "trim").getD "true") then parts.map Text.strip else parts
  return (Value.list (parts.map .text)).json

/-- `/join`: the texts of the items of a list with a glue between them. -/
def join (inv : Invocation) : Action String := do
  match (← inv.structured (.text inv.value)).toValue with
  | .list items =>
    let glue := Text.replaceEvery "\x7b\x7bspace\x7d\x7d" " " ((inv.argument? "glue").getD ", ")
    if (Value.list items).hasLongText then throw (.digitLimit none)
    else return String.intercalate glue (Value.itemTexts items)
  | _ => return ""

/-- `/trim`: the value without blanks around it. -/
def trim (inv : Invocation) : String :=
  Text.strip inv.value

/-- `/replace` and `/replaceAll`. -/
def replace (all : Bool) (inv : Invocation) : Action String := do
  match inv.given? "find" with
  | none => throw .findMissing
  | some find =>
    let replacement := ((inv.argument? "replace").getD "").toList
    let text := (← subjectText inv).toList
    match PatternLiteral.ofText? find with
    | some literal =>
      let p ← readPattern literal.mode literal.source
      return String.ofList (p.replace literal.isGlobal replacement text)
    | none =>
      let p ← readPattern {} (if all then find else Pattern.quoted find)
      return String.ofList (p.replace all replacement text)

end Command

end PipeScript

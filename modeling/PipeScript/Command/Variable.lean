import PipeScript.Command.Invocation

/-!
# Host commands

Variables, output, and failing on purpose.
-/

namespace PipeScript

namespace Command

/-- The name under `key=` or `name=`. -/
def keyArgument? (inv : Invocation) : Option String :=
  (inv.given? "key").or (inv.given? "name")

/-- The name of a variable: an argument, or the value. -/
def variableName (inv : Invocation) : String :=
  (keyArgument? inv).getD (Text.strip inv.value)

/-- `/echo`: says the value and hands it on. -/
def echo (inv : Invocation) : Action String := do
  Action.say (.output inv.value)
  return inv.value

/-- `/setvar`: stores the value in a local variable. -/
def setVar (inv : Invocation) : Action String := do
  match keyArgument? inv with
  | none => throw (.keyMissing "setvar")
  | some name =>
    Action.modifyStore (·.writeLocal name inv.value)
    return inv.value

/-- `/setglobalvar`: stores the value in a global variable. -/
def setGlobalVar (inv : Invocation) : Action String := do
  match keyArgument? inv with
  | none => throw (.keyMissing "setglobalvar")
  | some name =>
    Action.modifyStore (·.writeGlobal name inv.value)
    return inv.value

/-- `/getvar`: what a local variable holds. -/
def getVar (inv : Invocation) : Action String := do
  Action.write Value.pipeText ((← Action.store).readLocal (variableName inv)).toValue

/-- `/getglobalvar`: what a global variable holds. -/
def getGlobalVar (inv : Invocation) : Action String := do
  Action.write Value.pipeText ((← Action.store).readGlobal (variableName inv)).toValue

/-- `/flushvar`: deletes a local variable. -/
def flushVar (inv : Invocation) : Action String := do
  Action.modifyStore (·.deleteLocal (variableName inv))
  return ""

/-- `/throw`: fails with the value as its message. -/
def raise (inv : Invocation) : Action String :=
  throw (.thrown (if inv.value = "" then "thrown" else inv.value))

end Command

end PipeScript

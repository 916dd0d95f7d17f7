import PipeScript.Envelope
import PipeScript.Machine.Basic
import PipeScript.Template
import PipeScript.Value.Limit

/-!
# Invocations

What a command is given: its named arguments, its value, and the output of the stage before it.  A
command that runs other commands is also given the way to run them.
-/

namespace PipeScript

/-- What a command is given. -/
structure Invocation where
  arguments : Arguments
  value : String
  /-- The output of the stage before. -/
  pipe : String

/-- How a command runs a pipeline of its own; the answer is that pipeline's output. -/
abbrev Nested := String → Action String

namespace Invocation

def argument? (inv : Invocation) (name : String) : Option String :=
  inv.arguments.get? name

/-- An argument as a value: null when it is missing. -/
def argumentValue (inv : Invocation) (name : String) : Value :=
  match inv.argument? name with
  | some s => .text s
  | none => .null

/-- An argument, when it is there and not empty. -/
def given? (inv : Invocation) (name : String) : Option String :=
  (inv.argument? name).filter (· ≠ "")

/-- The text that carries the envelope: an explicit argument goes before the pipe. -/
def incoming (inv : Invocation) : String :=
  (inv.argument? "pipe").getD inv.pipe

/-- Structured data of the variables or of the value. -/
def structured (inv : Invocation) (literal : Value) : Action Shared := do
  return (← Action.store).structured (inv.argument? "var") (inv.argument? "globalvar") literal

/-- The stored value of the variables, or the value as it is. -/
def firstValue (inv : Invocation) : Action Value := do
  let store ← Action.store
  return (store.firstValue (inv.argument? "var") (inv.argument? "globalvar")
    (.text inv.value)).toValue

/-- The path in the index argument. -/
def path (inv : Invocation) : Action Path :=
  Action.ofExcept (Path.ofIndex (inv.argumentValue "index"))

end Invocation

/-- The text of a value in some form, unless an integer in it is too long to be written. -/
def Action.write (form : Value → String) (v : Value) : Action String :=
  if v.hasLongInteger then throw (.digitLimit none) else pure (form v)

/-- The text that a value counts as, unless an integer in that text is too long to be written. -/
def Action.spell (v : Value) : Action String :=
  if v.hasLongText then throw (.digitLimit none) else pure v.asText

end PipeScript

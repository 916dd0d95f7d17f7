import PipeScript.Command.Invocation
import PipeScript.Rule
import PipeScript.Value.LooseEq

/-!
# Boolean commands

Comparison by rule, and the connectives.  A connective picks one of its decoded operands by truth and
answers whether that operand loosely equals true.
-/

namespace PipeScript

namespace Command

def boolText (b : Bool) : String :=
  if b then "true" else "false"

/-- `/test`: compares two operands by a rule. -/
def compare (inv : Invocation) : Action String := do
  let store ← Action.store
  let a := store.operand (firstArgument? inv.arguments ["a", "left", "first", "x"])
  let b := store.operand (firstArgument? inv.arguments ["b", "right", "second", "y"])
  return boolText (← Action.ofExcept (Rule.evaluate ((inv.argument? "rule").getD "") a b))

/-- `/and`: the right operand if the left one is true. -/
def both (inv : Invocation) : String :=
  let left := (inv.argumentValue "left").decoded
  let right := (inv.argumentValue "right").decoded
  boolText ((if left.isTruthy then right else left).looseEq false (.bool true))

/-- `/or`: the left operand if it is true. -/
def either (inv : Invocation) : String :=
  let left := (inv.argumentValue "left").decoded
  let right := (inv.argumentValue "right").decoded
  boolText ((if left.isTruthy then left else right).looseEq false (.bool true))

/-- `/not`: whether the value does not say yes. -/
def negate (inv : Invocation) : String :=
  boolText (!saysYes inv.value)

end Command

end PipeScript

import PipeScript.Command.Invocation
import PipeScript.Value.LooseEq

/-!
# Control commands

Chains of `/try` and `/catch`, `/switch` and `/case`, and `/ife`, `/then`, `/elseif`, `/else`.  The
first command of a chain puts an envelope on the pipe; a later one acts when the envelope that comes
in calls for it, and hands anything else on untouched.
-/

namespace PipeScript

namespace Command

/-- Hands the pipe on from a stage that found no envelope at all. -/
def handOn (stage awaited incoming : String) : Action String := do
  Action.note (.idle stage awaited incoming)
  return incoming

/-- `/try`: the outcome of a command, whether it fails or not. -/
def attempt (nested : Nested) (inv : Invocation) : Action String := do
  let outcome ← tryCatch (do return Envelope.returned (.text (← nested inv.value)))
    fun fault => do
      Action.note (.caught fault)
      return Envelope.raised (some fault.message)
  return outcome.encode

/-- `/catch`: runs a command after a failure, and otherwise unwraps the result. -/
def recover (nested : Nested) (inv : Invocation) : Action String := do
  match Envelope.decode? inv.incoming with
  | some (.raised message) =>
    let message := message.getD ""
    nested (Template.fillAll inv.value [("exception", message), ("error", message)])
  | some (.returned result) => Action.write Value.pipeText result
  | _ => handOn "CATCH" "try" inv.incoming

/-- `/switch`: the value that cases are compared with. -/
def switch (inv : Invocation) : Action String := do
  let subject ← inv.firstValue
  Action.write (fun subject => (Envelope.switch subject).encode) subject

/-- `/case`: runs a command when its value loosely equals the one of the switch. -/
def matchCase (nested : Nested) (inv : Invocation) : Action String := do
  match Envelope.decode? inv.incoming with
  | some (.switch subject) =>
    if subject.looseEq false (inv.argumentValue "value") then
      let text ← Action.write Value.placeholderText subject
      nested (Template.fillAll inv.value [("value", text)])
    else return inv.incoming
  | some _ => return inv.incoming
  | none => handOn "CASE" "switch" inv.incoming

/-- Runs a condition and puts its outcome on the pipe. -/
def evaluateCondition (nested : Nested) (inv : Invocation) : Action String := do
  let output ← nested inv.value
  return (Envelope.condition (saysYes output)).encode

/-- Runs a command when the last condition had a given outcome. -/
def whenOutcome (stage : String) (outcome : Bool) (run : Action String) (incoming : String) :
    Action String := do
  match Envelope.decode? incoming with
  | some (.condition actual) => if actual = outcome then run else return incoming
  | some _ => return incoming
  | none => handOn stage "ife" incoming

/-- `/then`: runs a command after a true condition. -/
def whenTrue (nested : Nested) (inv : Invocation) : Action String :=
  whenOutcome "THEN" true (nested inv.value) inv.incoming

/-- `/else`: runs a command after a false condition. -/
def otherwise (nested : Nested) (inv : Invocation) : Action String :=
  whenOutcome "ELSE" false (nested inv.value) inv.incoming

/-- `/elseif`: evaluates a condition after a false one. -/
def elseIf (nested : Nested) (inv : Invocation) : Action String :=
  whenOutcome "ELSEIF" false (evaluateCondition nested inv) inv.incoming

end Command

end PipeScript

import PipeScript.Command.Control
import PipeScript.Command.Logic
import PipeScript.Command.Loop
import PipeScript.Command.Structure
import PipeScript.Command.TextEdit
import PipeScript.Command.Variable

/-!
# Execution

A pipeline is read as a whole before its first stage runs; then each stage gets the output of the one
before it as its pipe.  Commands run further pipelines one level deeper, and at the greatest depth a
pipeline is refused before it is read, so every run ends.
-/

namespace PipeScript

/-- The output of a pipeline, and those of its stages. -/
structure Output where
  pipe : String
  stages : List String
  deriving DecidableEq

/-- Runs a built-in command. -/
def Builtin.run (nested : Nested) (b : Builtin) (inv : Invocation) : Action String :=
  match b with
  | .both => return Command.both inv
  | .matchCase => Command.matchCase nested inv
  | .recover => Command.recover nested inv
  | .pairs => Command.pairs inv
  | .otherwise => Command.otherwise nested inv
  | .elseIf => Command.elseIf nested inv
  | .filter => Command.filter nested inv
  | .find => Command.find nested inv
  | .forEach => Command.forEach nested inv
  | .getAt => Command.getAt inv
  | .condition => Command.evaluateCondition nested inv
  | .join => Command.join inv
  | .prettyJson => Command.prettyJson inv
  | .listing => return (← get).registry.listing
  | .mapItems => Command.mapItems nested inv
  | .negate => return Command.negate inv
  | .either => return Command.either inv
  | .replace => Command.replace false inv
  | .replaceAll => Command.replace true inv
  | .setAt => Command.setAt inv
  | .shuffle => Command.shuffle inv
  | .slice => Command.slice inv
  | .split => Command.split inv
  | .switch => Command.switch inv
  | .compare => Command.compare inv
  | .whenTrue => Command.whenTrue nested inv
  | .timestamp => return (Value.int (← get).clock).json
  | .trim => return Command.trim inv
  | .attempt => Command.attempt nested inv
  | .echo => Command.echo inv
  | .flushVar => Command.flushVar inv
  | .getGlobalVar => Command.getGlobalVar inv
  | .getVar => Command.getVar inv
  | .pass => return inv.value
  | .setGlobalVar => Command.setGlobalVar inv
  | .setVar => Command.setVar inv
  | .raise => Command.raise inv

/-- Runs what a command does. -/
def Handler.run (nested : Nested) (handler : Handler) (inv : Invocation) : Action String :=
  match handler with
  | .builtin b => b.run nested inv
  | .host run => do
    Action.write Value.pipeText (← Action.ofExcept (run inv.arguments inv.value inv.pipe))

/-- What a call gives its command: the pipe fills its placeholders in the arguments and in a value
that is no command line, and stands in for a missing value. -/
def Call.invocation (call : Call) (pipe : String) : Invocation where
  arguments := call.arguments.map fun (name, text) => (name, Template.fill text "pipe" pipe)
  value :=
    if call.hasValue then
      if call.value.toList.head? = some '/' then call.value
      else Template.fill call.value "pipe" pipe
    else pipe
  pipe := pipe

/-- Turns every fault that ends an action into the one that leaves a command. -/
def Action.leavingCommand {α : Type} (action : Action α) : Action α :=
  tryCatch action fun fault => throw fault.leavingCommand

/-- Runs one call of a pipeline. -/
def dispatch (nested : Nested) (call : Call) (pipe : String) : Action String := do
  let machine ← get
  match machine.registry.get? call.name with
  | none => throw (.unknownCommand call.name)
  | some command =>
    let inv := call.invocation pipe
    Action.note (.dispatch command.name machine.depth inv.arguments inv.value)
    Action.leavingCommand (command.handler.run nested inv)

/-- Runs calls one after the other and answers their outputs. -/
def runCalls (nested : Nested) : List Call → (pipe : String) → Action (List String)
  | [], _ => return []
  | call :: rest, pipe => do
    let output ← dispatch nested call pipe
    return output :: (← runCalls nested rest output)

/-- Reads a pipeline and runs its calls. -/
def runText (nested : Nested) (text pipe : String) : Action Output := do
  let calls ← Action.ofExcept (Pipeline.calls text)
  let outputs ← runCalls nested calls pipe
  return ⟨outputs.getLast?.getD pipe, outputs⟩

/-- Runs an action one level deeper. -/
def Action.deeper {α : Type} (action : Action α) : Action α := fun m =>
  let (result, after) := action { m with depth := m.depth + 1 }
  (result, { after with depth := after.depth - 1 })

/-- Runs a pipeline when `levels` more levels are allowed. -/
def executeWithin : (levels : Nat) → (text pipe : String) → Action Output
  | 0, _, _ => do throw (.nestingLimit (← get).maxDepth)
  | levels + 1, text, pipe =>
    Action.deeper (runText (fun command => do return (← executeWithin levels command "").pipe) text
      pipe)

/-- Runs a pipeline. -/
def execute (text pipe : String) : Action Output := fun m =>
  executeWithin (m.maxDepth - m.depth) text pipe m

/-- The outcome of a run: an output or a fault, and what was said on the way. -/
structure Report where
  outcome : Except Fault String
  effects : List Effect

namespace Report

/-- A message with the kind of its error in front, unless it starts with it. -/
def formatError (message kind : Option String) : String :=
  let message := match message with
    | some s => if s = "" then "Unknown error" else s
    | none => "Unknown error"
  match kind with
  | none => message
  | some kind =>
    if kind = "" || (kind ++ ":").toList.isPrefixOf message.toList then message
    else kind ++ ": " ++ message

/-- The error of a run, as it is shown; empty after a success. -/
def errorText (r : Report) : String :=
  match r.outcome with
  | .ok _ => ""
  | .error fault => formatError (some fault.message) (some fault.kind)

end Report

namespace Machine

/-- The machine at the start of a run. -/
def fresh (m : Machine) : Machine :=
  { m with effects := [], depth := 0, trace := [] }

/-- Runs a pipeline and reports; a fault ends the run and is said to the outside. -/
def run (text : String) (m : Machine) : Report × Machine :=
  match execute text "" m.fresh with
  | (.ok output, after) => (⟨.ok output.pipe, after.effects⟩, after)
  | (.error fault, after) =>
    let effects := after.effects ++ [.failure fault.message]
    (⟨.error fault, effects⟩, { after with effects, trace := .failed fault :: after.trace })

/-- The trace of the last run, as lines. -/
def traceLines (m : Machine) : List String :=
  (m.trace.map TraceEntry.line).reverse

end Machine

end PipeScript

import PipeScript.Command.Registry
import PipeScript.Store.Operand

/-!
# The machine

The state that pipelines run in, and the actions on it.  An action may end in a fault; what it did to
the machine before that stays done.  The machine notes every command it dispatches and every fault it
meets in a trace.
-/

namespace PipeScript

/-- What a pipeline says to the outside. -/
inductive Effect where
  | output (message : String)
  | failure (message : String)
  deriving DecidableEq

/-- A note in the trace. -/
inductive TraceEntry where
  /-- A command is about to run at a depth. -/
  | dispatch (name : String) (depth : Nat) (arguments : Arguments) (value : String)
  /-- A tried command has failed. -/
  | caught (fault : Fault)
  /-- A stage found no envelope of its family in the pipe. -/
  | idle (stage awaited pipe : String)
  /-- A run has failed. -/
  | failed (fault : Fault)

/-- The line that shows a note. -/
def TraceEntry.line : TraceEntry → String
  | .dispatch name depth arguments value =>
    let literal := (Value.dict (arguments.map fun (k, v) => (.text k, .text v))).literal
    s!"[DBG] dispatch /{name} depth {depth} args {literal} value " ++ Text.quoted value
  | .caught fault => "[DBG] TRY caught " ++ fault.kind ++ " " ++ fault.message
  | .idle stage awaited pipe =>
    "[DBG] " ++ stage ++ " no /" ++ awaited ++ " envelope in pipe " ++ Text.quoted pipe
  | .failed fault => "[DBG] error " ++ fault.kind ++ " " ++ fault.message

structure Machine where
  store : Store
  registry : Registry
  /-- What the current run has said so far. -/
  effects : List Effect
  /-- How many pipelines are under way, one inside another. -/
  depth : Nat
  /-- How many may be. -/
  maxDepth : Nat
  /-- The notes of the current run, latest first. -/
  trace : List TraceEntry
  /-- The time in milliseconds. -/
  clock : Nat
  /-- Where shuffling takes its choices from. -/
  seed : Nat

/-- An action on the machine that may fail. -/
abbrev Action := ExceptT Fault (StateM Machine)

namespace Machine

/-- The depth that is allowed when nothing else is asked for. -/
def defaultMaxDepth : Nat := 64

/-- A machine at rest, with the built-in commands added to a registry. -/
def start (store : Store) (registry : Registry) (maxDepth : Nat) : Machine :=
  ⟨store, registry.withBuiltins, [], 0, maxDepth, [], 0, 1⟩

/-- Reads digits that may be grouped by single underscores. -/
def groupedDigits? : (value : Nat) → (digitBefore : Bool) → List Char → Option Nat
  | value, digitBefore, [] => if digitBefore then some value else none
  | value, digitBefore, c :: rest =>
    if c = '_' then if digitBefore then groupedDigits? value false rest else none
    else if Text.isDigit c then groupedDigits? (10 * value + Text.anyDigitValue c) true rest
    else none

/-- The depth that a setting asks for; a setting that is no positive integer asks for nothing. -/
def maxDepthOf (setting : Option String) : Nat :=
  match setting with
  | none => defaultMaxDepth
  | some s =>
    let (negative, digits) := splitSign (Text.stripChars s.toList)
    match groupedDigits? 0 false digits with
    | some n =>
      if negative || n = 0 || exceedsDigitLimit n then defaultMaxDepth else n
    | none => defaultMaxDepth

end Machine

namespace Action

def store : Action Store := do
  return (← get).store

def modifyStore (f : Store → Store) : Action Unit :=
  modify fun m => { m with store := f m.store }

/-- Says something to the outside. -/
def say (effect : Effect) : Action Unit :=
  modify fun m => { m with effects := m.effects ++ [effect] }

def note (entry : TraceEntry) : Action Unit :=
  modify fun m => { m with trace := entry :: m.trace }

/-- What a computation gives, or its fault. -/
def ofExcept {α : Type} : Except Fault α → Action α
  | .ok a => pure a
  | .error fault => throw fault

/-- A shared value as it is now. -/
def current (item : Shared) : Action Value := do
  return ((← store).current item).toValue

end Action

end PipeScript

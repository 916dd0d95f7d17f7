import PipeScript.Session
import Std.Time.DateTime.Timestamp

/-!
# The command line

Runs the script named by the first argument, or holds a conversation.  `SLASH_VARS` names a file that
seeds the variables, `SLASH_MAX_DEPTH` bounds the nesting of pipelines, and with `SLASH_DEBUG` the
notes of every run go to the error stream.  The streams here encode every text, so no result is
refused.
-/

namespace PipeScript.CommandLine

def emit (prints : List Print) : IO Unit := do
  for p in prints do
    match p with
    | .out text => IO.print text
    | .err text => IO.eprint text
  (← IO.getStdout).flush

/-- The contents of a file, if it can be read. -/
def contents? (path : String) : IO (Option String) := do
  try
    return some (← IO.FS.readFile path)
  catch _ => return none

/-- Runs a pipeline at the present time. -/
def runNow (debug : Bool) (text : String) (m : Machine) : IO (Report × Machine) := do
  let now ← Std.Time.Timestamp.now
  let (report, m) := Machine.run text { m with clock := now.toMillisecondsSinceUnixEpoch.val.toNat }
  if debug then emit (m.traceLines.map .errorLine)
  return (report, m)

/-- Runs the pipelines of a script and answers whether one has failed. -/
def runScript (debug : Bool) : List String → Machine → IO Bool
  | [], _ => return false
  | line :: rest, m => do
    let (report, m) ← runNow debug line m
    emit report.prints
    if report.failed then return true else runScript debug rest m

/-- Answers lines until they end. -/
partial def converse (debug : Bool) (input : IO.FS.Stream) (m : Machine) : IO Unit := do
  emit [Conversation.prompt]
  let line ← input.getLine
  if line.isEmpty then emit [Conversation.farewell]
  else
    match Conversation.request line with
    | .nothing => converse debug input m
    | .leave => return
    | .pipeline text =>
      let (report, m) ← runNow debug text m
      emit report.prints
      converse debug input m

/-- The machine at the start. -/
def openMachine : IO (Except Fault Machine) := do
  let seed ← IO.getEnv "SLASH_VARS"
  let contents ← seed.bindM contents?
  let now ← Std.Time.Timestamp.now
  let start := fun store maxDepth =>
    { Machine.start store .empty maxDepth with seed := now.toMillisecondsSinceUnixEpoch.val.toNat }
  let maxDepth := Machine.maxDepthOf (← IO.getEnv "SLASH_MAX_DEPTH")
  return (Session.openStore Yaml.read seed fun _ => contents).map fun store => start store maxDepth

/-- Ends the program with a fault. -/
def breakOff (fault : Fault) : IO UInt32 := do
  emit [.errorLine (Report.formatError (some fault.message) (some fault.kind))]
  return 1

def run (arguments : List String) : IO UInt32 := do
  let debug := (← IO.getEnv "SLASH_DEBUG").any (· ≠ "")
  match Session.scriptPath? arguments with
  | some path =>
    match ← openMachine with
    | .error fault => breakOff fault
    | .ok machine =>
      match ← contents? path with
      | none =>
        emit [Script.notFound path]
        return 1
      | some source => return if ← runScript debug (Script.pipelines source) machine then 1 else 0
  | none =>
    emit Conversation.banner
    match ← openMachine with
    | .error fault => breakOff fault
    | .ok machine =>
      converse debug (← IO.getStdin) machine
      return 0

end PipeScript.CommandLine

def main (arguments : List String) : IO UInt32 :=
  PipeScript.CommandLine.run arguments

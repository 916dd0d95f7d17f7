import PipeScript.Machine.Execute
import PipeScript.Yaml.Standard

/-!
# Sessions

Pipelines reach the machine line by line, from a script or from a conversation.  Both print what a line
says and then its output, or its error on the error stream.  A script skips blank lines and comments
and ends with the first line that fails; a conversation prompts for every line and goes on after a
failure.

A result may hold characters that the stream it is printed on cannot encode (`Print.Refusal`).
Printing stops at such a text with a fault: it breaks a script off, and a conversation says so and
goes on.  Prompts and greetings are plain, and the error stream writes every text.  (A surrogate
alone, which no stream encodes, is no character, and no text here holds one.)
-/

namespace PipeScript

/-- A piece of text on its way to the user. -/
inductive Print where
  | out (text : String)
  /-- On the error stream. -/
  | err (text : String)
  deriving DecidableEq

namespace Print

def line (text : String) : Print := .out (text ++ "\n")

def errorLine (text : String) : Print := .err (text ++ "\n")

/-- What the stream that results are printed on says of a text that it cannot encode; nothing of one
that it prints. -/
abbrev Refusal := String → Option String

/-- What is said of a piece of text that cannot be printed. -/
def refused? (refusal : Refusal) : Print → Option String
  | out text => refusal text
  | err _ => none

/-- What comes out of pieces of text, up to the first that cannot be printed, and what is said of that
one. -/
def deliver (refusal : Refusal) : List Print → List Print × Option String
  | [] => ([], none)
  | p :: rest =>
    match p.refused? refusal with
    | some message => ([], some message)
    | none =>
      let (delivered, refused) := deliver refusal rest
      (p :: delivered, refused)

/-- All that was printed on the first stream. -/
def outText (prints : List Print) : String :=
  String.join (prints.filterMap fun p => match p with | out text => some text | err _ => none)

/-- All that was printed on the error stream. -/
def errText (prints : List Print) : String :=
  String.join (prints.filterMap fun p => match p with | err text => some text | out _ => none)

end Print

namespace Report

def failed (r : Report) : Bool :=
  match r.outcome with
  | .ok _ => false
  | .error _ => true

/-- What is printed for a run: its messages, then its output unless empty, or its error. -/
def prints (r : Report) : List Print :=
  let messages := r.effects.filterMap fun e =>
    match e with
    | .output message => some (Print.line message)
    | .failure _ => none
  let result := match r.outcome with
    | .ok output => if output = "" then [] else [Print.line output]
    | .error _ => [Print.errorLine r.errorText]
  messages ++ result

end Report

/-- How running lines ends. -/
inductive Ending where
  /-- No line is left that is asked for. -/
  | finished
  /-- A run has reported an error. -/
  | failed
  /-- A fault has come up that no run reports. -/
  | broken (fault : Fault)
  deriving DecidableEq

/-- What running lines has printed, the machine afterwards, and how it ends. -/
structure Transcript where
  prints : List Print
  machine : Machine
  ending : Ending

namespace Transcript

/-- Puts something in front of what was printed. -/
def after (prints : List Print) (t : Transcript) : Transcript :=
  { t with prints := prints ++ t.prints }

/-- Whether something has gone wrong. -/
def failed (t : Transcript) : Bool :=
  match t.ending with
  | .finished => false
  | .failed | .broken _ => true

/-- What a conversation says of a fault that no run reports. -/
def excuse (t : Transcript) : List Print :=
  match t.ending with
  | .broken fault => [.errorLine ("Error: " ++ fault.message)]
  | .finished | .failed => []

end Transcript

/-- Runs a pipeline and prints its result. -/
def Machine.answer (refusal : Print.Refusal) (text : String) (m : Machine) : Transcript :=
  let (report, m) := m.run text
  match Print.deliver refusal report.prints with
  | (delivered, some message) => ⟨delivered, m, .broken (.unprintable message)⟩
  | (delivered, none) => ⟨delivered, m, if report.failed then .failed else .finished⟩

namespace Script

/-- Whether a stripped line holds a pipeline: it is not blank and no comment. -/
def isPipeline (line : String) : Bool :=
  match line.toList with
  | [] => false
  | c :: _ => c != '#'

/-- The pipelines of a script. -/
def pipelines (source : String) : List String :=
  ((Text.lines (Text.unifyLineEnds source)).map Text.strip).filter isPipeline

/-- Runs pipelines up to the first that fails or whose result cannot be printed. -/
def run (refusal : Print.Refusal) : List String → Machine → Transcript
  | [], m => ⟨[], m, .finished⟩
  | line :: rest, m =>
    let answer := m.answer refusal line
    if answer.failed then answer else (run refusal rest answer.machine).after answer.prints

/-- What is said when there is no script at a path. -/
def notFound (path : String) : Print :=
  .errorLine ("Error: file not found: " ++ path)

end Script

namespace Conversation

/-- What opens a conversation. -/
def banner : List Print :=
  [.line "slash REPL v0.1", .line "Type 'exit' or press Ctrl+D to quit."]

/-- What asks for a line. -/
def prompt : Print := .out ">> "

/-- What is said when the lines have ended. -/
def farewell : Print := .line "\nExiting."

/-- What a line asks for. -/
inductive Request where
  | nothing
  | leave
  | pipeline (text : String)

def request (line : String) : Request :=
  let line := Text.strip line
  if line = "" then .nothing else if line = "exit" then .leave else .pipeline line

/-- The lines that someone enters; the last one may lack its line feed. -/
def lines (input : String) : List String :=
  let pieces := Text.cutAt "\n" input
  if pieces.getLast? = some "" then pieces.dropLast else pieces

/-- Answers lines until they end or one of them says so. -/
def run (refusal : Print.Refusal) : List String → Machine → Transcript
  | [], m => ⟨[prompt, farewell], m, .finished⟩
  | line :: rest, m =>
    match request line with
    | .nothing => (run refusal rest m).after [prompt]
    | .leave => ⟨[prompt], m, .finished⟩
    | .pipeline text =>
      let answer := m.answer refusal text
      (run refusal rest answer.machine).after (prompt :: answer.prints ++ answer.excuse)

end Conversation

/-- What the program was started with. -/
structure Session where
  arguments : List String
  /-- The contents of a file. -/
  read : String → Option String
  /-- The file that seeds the variables. -/
  seed : Option String
  /-- What is entered in a conversation. -/
  input : String
  /-- The time in milliseconds. -/
  clock : Nat
  /-- What the stream says of results that it cannot encode. -/
  refusal : Print.Refusal := fun _ => none
  /-- What documents in YAML are read with. -/
  yaml : Yaml.Loader := Yaml.read

/-- How a session has gone: what was printed, the exit code that it asks for, and the fault that broke
it off. -/
structure SessionResult where
  prints : List Print
  exitCode : Nat
  broken : Option Fault

namespace SessionResult

/-- The exit code of the program, which is 1 when a fault breaks it off. -/
def status (r : SessionResult) : Nat :=
  if r.broken.isSome then 1 else r.exitCode

/-- The result of a script that has ended. -/
def ofScript (t : Transcript) : SessionResult :=
  match t.ending with
  | .finished => ⟨t.prints, 0, none⟩
  | .failed => ⟨t.prints, 1, none⟩
  | .broken fault => ⟨t.prints, 0, some fault⟩

end SessionResult

namespace Session

/-- The script that the arguments name; an argument with a dash names none. -/
def scriptPath? (arguments : List String) : Option String :=
  match arguments with
  | path :: _ => if path.toList.head? = some '-' then none else some path
  | [] => none

/-- The variables at the start, from a file and its contents. -/
def openStore (yaml : Yaml.Loader) (seed : Option String) (contents : String → Option String) :
    Except Fault Store :=
  match seed with
  | none => .ok .empty
  | some name => if name = "" then .ok .empty else Store.load yaml name ((contents name).getD "")

/-- The machine at the start. -/
def openMachine (s : Session) : Except Fault Machine :=
  (openStore s.yaml s.seed s.read).map fun store =>
    { Machine.start store .empty Machine.defaultMaxDepth with clock := s.clock }

/-- Runs a script. -/
def runScript (s : Session) (path : String) : SessionResult :=
  match s.openMachine with
  | .error fault => ⟨[], 0, some fault⟩
  | .ok machine =>
    match s.read path with
    | none => ⟨[Script.notFound path], 1, none⟩
    | some source => .ofScript (Script.run s.refusal (Script.pipelines source) machine)

/-- Holds a conversation. -/
def converse (s : Session) : SessionResult :=
  match s.openMachine with
  | .error fault => ⟨Conversation.banner, 0, some fault⟩
  | .ok machine =>
    let t := Conversation.run s.refusal (Conversation.lines s.input) machine
    ⟨Conversation.banner ++ t.prints, 0, none⟩

/-- Runs the script that the arguments name, or holds a conversation. -/
def run (s : Session) : SessionResult :=
  match scriptPath? s.arguments with
  | some path => s.runScript path
  | none => s.converse

end Session

end PipeScript

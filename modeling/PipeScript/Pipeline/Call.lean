import PipeScript.Fault
import PipeScript.Pipeline.Segment

/-!
# Command calls

A segment reads `/name key=literal … value`.  The name runs to the next gap.  A literal is a quoted
text, in which a backslash frees a quote; a bracketed text, in which brackets nest and JSON strings are
opaque; or a bare word.  The first place where no argument follows starts the value, which is
everything that is left, stripped.  A value that starts like an argument whose literal is never closed
is refused.

The form of a call is a grammar of the language; the engine that runs it is not part of it and is
assumed to run it as a parsing expression grammar.  Alternatives are tried in order and the first that
matches is taken, repetitions take as much as they can and give nothing back, and a segment is read from
its start to its end.  `readArguments` and the readers it uses are this run of the grammar.
-/

namespace PipeScript

/-- Named arguments, in the order of their first mention. -/
abbrev Arguments := List (String × String)

namespace Arguments

/-- Puts a text under a name: in the place of the name when it is known, else at the end. -/
def insert (name text : String) : Arguments → Arguments
  | [] => [(name, text)]
  | (n, t) :: rest => if n = name then (n, text) :: rest else (n, t) :: insert name text rest

def get? (args : Arguments) (name : String) : Option String :=
  args.lookup name

/-- The arguments of a list of pairs; a repeated name keeps its first place and its last text. -/
def ofPairs (pairs : List (String × String)) : Arguments :=
  pairs.foldl (fun args (name, text) => insert name text args) []

end Arguments

/-- One command of a pipeline. -/
structure Call where
  name : String
  arguments : Arguments
  value : String
  /-- The segment itself, stripped. -/
  raw : String
  deriving DecidableEq

/-- Whether the call has a value of its own. -/
def Call.hasValue (call : Call) : Bool :=
  call.value ≠ ""

namespace Pipeline

open Text

/-! ### Literals -/

def isKeyStart (c : Char) : Bool :=
  isAsciiLetter c || c == '_'

def isKeyChar (c : Char) : Bool :=
  isAsciiLetter c || isAsciiDigit c || c == '_' || c == '-'

/-- Reads a quoted literal after its opening quote: the text it denotes and what follows. -/
def readQuoted? : List Char → Option (List Char × List Char)
  | [] => none
  | '"' :: rest => some ([], rest)
  | '\\' :: '"' :: rest => (readQuoted? rest).map fun (text, rest) => ('"' :: text, rest)
  | c :: rest => (readQuoted? rest).map fun (text, rest) => (c :: text, rest)

/-- The bracket that closes an opening one. -/
def closer? (c : Char) : Option Char :=
  if c = '[' then some ']' else if c = '\x7b' then some '\x7d' else none

/-- Reads on inside brackets up to and with the last of the awaited closers; `inString` tells
whether the scan stands inside a JSON string. -/
def readBrackets? : (inString : Bool) → (awaited : List Char) → List Char →
    Option (List Char × List Char)
  | _, _, [] => none
  | true, awaited, '\\' :: c :: rest =>
    (readBrackets? true awaited rest).map fun (text, rest) => ('\\' :: c :: text, rest)
  | true, awaited, c :: rest =>
    if c = '\\' then none
    else (readBrackets? (c != '"') awaited rest).map fun (text, rest) => (c :: text, rest)
  | false, awaited, c :: rest =>
    match closer? c with
    | some closer =>
      (readBrackets? false (closer :: awaited) rest).map fun (text, rest) => (c :: text, rest)
    | none =>
      if c = ']' || c = '\x7d' then
        match awaited with
        | [] => none
        | [last] => if c = last then some ([c], rest) else none
        | first :: others =>
          if c = first then
            (readBrackets? false others rest).map fun (text, rest) => (c :: text, rest)
          else none
      else (readBrackets? (c == '"') awaited rest).map fun (text, rest) => (c :: text, rest)

/-- Reads the literal of an argument: the text it denotes and what follows. -/
def readLiteral? (cs : List Char) : Option (List Char × List Char) :=
  match cs with
  | [] => some ([], [])
  | c :: rest =>
    if c = '"' then readQuoted? rest
    else
      match closer? c with
      | some closer =>
        (readBrackets? false [closer] rest).map fun (text, rest) => (c :: text, rest)
      | none => some (cs.takeWhile (!isGap ·), cs.dropWhile (!isGap ·))

/-! ### Arguments -/

/-- Reads `key=` and answers the key and what follows. -/
def readKey? (cs : List Char) : Option (List Char × List Char) :=
  match cs with
  | [] => none
  | c :: _ =>
    if isKeyStart c then
      match cs.dropWhile isKeyChar with
      | '=' :: rest => some (cs.takeWhile isKeyChar, rest)
      | _ => none
    else none

/-- Reads one argument with the gap before it. -/
def readArgument? (cs : List Char) : Option ((String × String) × List Char) := do
  let (key, rest) ← readKey? (cs.dropWhile isGap)
  let (text, rest) ← readLiteral? rest
  return ((String.ofList key, String.ofList text), rest)

/-- Reads arguments as long as there are any; each takes at least its `=`, so the length of the text
bounds their number. -/
def readArguments : (fuel : Nat) → List Char → List (String × String) × List Char
  | 0, cs => ([], cs)
  | fuel + 1, cs =>
    match readArgument? cs with
    | some (argument, rest) =>
      let (arguments, rest) := readArguments fuel rest
      (argument :: arguments, rest)
    | none => ([], cs)

/-- The opening character of a value that starts like an argument with an unclosed literal. -/
def unclosedOpener? (value : List Char) : Option Char :=
  match readKey? value with
  | some (_, c :: _) => if c = '"' || (closer? c).isSome then some c else none
  | _ => none

/-! ### Calls -/

/-- The call after its slash, with the whole segment for messages. -/
def readCall (raw : String) (body : List Char) : Except Fault Call :=
  let name := body.takeWhile (!isGap ·)
  if name.isEmpty then .error (.namelessCommand raw)
  else
    let tail := body.dropWhile (!isGap ·)
    let (arguments, tail) := readArguments (tail.length + 1) tail
    let value := stripChars tail
    match unclosedOpener? value with
    | some opener => .error (.unclosed opener raw)
    | none =>
      .ok ⟨String.ofList name, Arguments.ofPairs arguments, String.ofList value, raw⟩

/-- The call that a segment makes. -/
def call (segment : String) : Except Fault Call :=
  let raw := stripChars segment.toList
  match raw with
  | '/' :: body => readCall (String.ofList raw) body
  | _ => .error (.notACommand (String.ofList raw))

/-- The calls of a pipeline, in order; the first segment that makes none refuses it. -/
def calls (text : String) : Except Fault (List Call) :=
  (segments text).mapM call

end Pipeline

end PipeScript

import PipeScript.Pattern.Basic

/-!
# Pattern tokens

The text of a pattern is read in tokens: a character, or a backslash with the character after it.
The reader keeps the tokens that are left, the position of the next one, the modes in force and what
is known about the groups.  A backslash at the very end is refused as soon as it comes next.
-/

namespace PipeScript

namespace Pattern

inductive Token where
  | plain (c : Char)
  | escape (c : Char)
  /-- A backslash that ends the pattern. -/
  | dangling
  deriving DecidableEq

namespace Token

/-- The characters of a token. -/
def chars : Token → List Char
  | .plain c => [c]
  | .escape c => ['\\', c]
  | .dangling => ['\\']

def text (t : Token) : String :=
  String.ofList t.chars

/-- The tokens of a pattern text. -/
def ofChars : List Char → List Token
  | [] => []
  | ['\\'] => [.dangling]
  | '\\' :: c :: rest => .escape c :: ofChars rest
  | c :: rest => .plain c :: ofChars rest

def isDigit : Token → Bool
  | .plain c => Text.isAsciiDigit c
  | _ => false

def isOctal : Token → Bool
  | .plain c => '0' ≤ c && c ≤ '7'
  | _ => false

def isHex : Token → Bool
  | .plain c => (Text.hexValue? c).isSome
  | _ => false

end Token

/-- The characters that a quoted text puts behind a backslash: those with a meaning in patterns, and
blanks. -/
def isSpecial (c : Char) : Bool :=
  "()[]\x7b\x7d?*+-|^$\\.&~# \t\n\r\x0b\x0c".toList.contains c

/-- A character as it stands in a quoted text. -/
def quotedChar (c : Char) : List Char :=
  if isSpecial c then ['\\', c] else [c]

/-- The text of the pattern that a fixed text is. -/
def quoted (s : String) : String :=
  String.ofList (s.toList.flatMap quotedChar)

/-- The modes in which parts are read. -/
structure Mode where
  ignoreCase : Bool := false
  multiLine : Bool := false
  dotAll : Bool := false
  verbose : Bool := false
  ascii : Bool := false
  deriving DecidableEq

def Mode.fold (m : Mode) : Fold :=
  if m.ignoreCase then (if m.ascii then .asciiCase else .anyCase) else .exact

/-- The state of a reader. -/
structure Reader where
  rest : List Token
  position : Nat
  mode : Mode
  /-- The widths of the groups; an open group has none yet. -/
  groups : Array (Option Width)
  names : List (String × Nat)
  /-- The number of groups at the outermost look behind that is open. -/
  behind : Option Nat
  /-- Groups that conditions name by number, with the position of the first such condition. -/
  conditions : List (Nat × Nat)
  unicodeAsked : Bool

abbrev Reading := StateT Reader (Except PatternError)

namespace Reading

def fail {α : Type} (problem : String) (position : Nat) : Reading α :=
  throw ⟨problem, some position⟩

def position : Reading Nat :=
  return (← get).position

/-- Fails at a distance before the next token. -/
def failBack {α : Type} (problem : String) (distance : Nat) : Reading α := do
  fail problem ((← position) - distance)

/-- The next token. -/
def peek? : Reading (Option Token) :=
  return (← get).rest.head?

/-- Refuses a backslash that ends the pattern when it comes next. -/
def refuseDangling : Reading Unit := do
  let s ← get
  if s.rest.head? = some .dangling then fail "bad escape (end of pattern)" s.position

/-- Takes the next token. -/
def next? : Reading (Option Token) := do
  let s ← get
  match s.rest with
  | [] => return none
  | t :: rest =>
    set { s with rest, position := s.position + t.chars.length }
    refuseDangling
    return some t

/-- Takes the next token if it is a given character. -/
def accept (c : Char) : Reading Bool := do
  if (← peek?) = some (.plain c) then
    let _ ← next?
    return true
  else return false

/-- Takes at most `count` tokens of a class and answers their characters. -/
def takeWhile (test : Token → Bool) : (count : Nat) → Reading (List Char)
  | 0 => return []
  | count + 1 => do
    match ← peek? with
    | some t =>
      if test t then
        let _ ← next?
        return t.chars ++ (← takeWhile test count)
      else return []
    | none => return []

/-- Takes everything up to and with a closing character; `what` names it in complaints. -/
def takeUntil (closing : Char) (what : String) : (fuel : Nat) → (taken : List Char) →
    Reading (List Char)
  | 0, taken => return taken
  | fuel + 1, taken => do
    match ← next? with
    | none =>
      if taken.isEmpty then failBack ("missing " ++ what) 0
      else failBack ("missing " ++ String.singleton closing ++ ", unterminated name") taken.length
    | some t =>
      if t = .plain closing then
        if taken.isEmpty then failBack ("missing " ++ what) 1 else return taken
      else takeUntil closing what fuel (taken ++ t.chars)

/-- A number that bounds the tokens left. -/
def fuel : Reading Nat :=
  return (← get).rest.length + 1

/-- Takes a name up to and with a closing character. -/
def takeName (closing : Char) (what : String) : Reading (List Char) := do
  takeUntil closing what (← fuel) []

end Reading

end Pattern

end PipeScript

import PipeScript.Text.Quoted
import PipeScript.Value.Basic

/-!
# JSON text

Values as JSON text, on one line or with one entry per line.  With an indent of zero nothing is
written between tokens; otherwise every entry starts a line, indented by its depth, and a blank
follows each colon.  Empty containers stay on one line in both layouts.
-/

namespace PipeScript

/-- The spelling of a key that is not a text. -/
def Scalar.keyText : Scalar → String
  | .null => "None"
  | .bool b => if b then "True" else "False"
  | .number n => n.render .literal
  | .text s => s
  | .moment m => m.text

namespace Json

/-- One character inside a JSON string. -/
def escapeChar (c : Char) : List Char :=
  if c = '"' then ['\\', '"']
  else if c = '\\' then ['\\', '\\']
  else if c = '\n' then ['\\', 'n']
  else if c = '\r' then ['\\', 'r']
  else if c = '\t' then ['\\', 't']
  else if c = '\x08' then ['\\', 'b']
  else if c = '\x0c' then ['\\', 'f']
  else if c.toNat < 0x20 then '\\' :: 'u' :: Text.hexDigits 4 c.toNat
  else [c]

/-- A JSON string. -/
def stringChars (s : String) : List Char :=
  '"' :: s.toList.flatMap escapeChar ++ ['"']

/-- A scalar as JSON; a number that is not finite is null. -/
def scalarChars : Scalar → List Char
  | .null => ['n', 'u', 'l', 'l']
  | .bool true => ['t', 'r', 'u', 'e']
  | .bool false => ['f', 'a', 'l', 's', 'e']
  | .number (.int i) => Number.intChars i
  | .number (.float x) => if x.isFinite then (NumberLayout.host.render x).toList else ['n', 'u', 'l', 'l']
  | .text s => stringChars s
  | .moment m => stringChars m.text

/-- What stands before an entry at a depth: nothing, or a line break and the indent. -/
def gap (indent level : Nat) : List Char :=
  if indent = 0 then [] else '\n' :: List.replicate (indent * level) ' '

/-- The parts of a container between its brackets. -/
def bracketed (opening closing : Char) (indent level : Nat) (parts : List (List Char)) :
    List Char :=
  if parts.isEmpty then [opening, closing]
  else
    opening :: gap indent (level + 1) ++ (',' :: gap indent (level + 1)).intercalate parts ++
      gap indent level ++ [closing]

/-- A key and the colon after it. -/
def keyChars (indent : Nat) (key : Scalar) : List Char :=
  stringChars key.keyText ++ (if indent = 0 then [':'] else [':', ' '])

mutual

/-- A value as JSON, at a depth. -/
def valueChars (indent level : Nat) : Value → List Char
  | .scalar s => scalarChars s
  | .list items => bracketed '[' ']' indent level (itemParts indent (level + 1) items)
  | .dict entries => bracketed '{' '}' indent level (entryParts indent (level + 1) entries)

def itemParts (indent level : Nat) : List Value → List (List Char)
  | [] => []
  | item :: rest => valueChars indent level item :: itemParts indent level rest

def entryParts (indent level : Nat) : List (Scalar × Value) → List (List Char)
  | [] => []
  | (key, item) :: rest =>
    (keyChars indent key ++ valueChars indent level item) :: entryParts indent level rest

end

/-- The number of blanks per depth that a setting asks for: none without one, and none with a
negative one. -/
def indentWidth (setting : Option Int) : Nat :=
  (setting.getD 0).toNat

/-- A value as JSON text, indented by a number of blanks per depth or on one line. -/
def render (indent : Nat) (v : Value) : String :=
  String.ofList (valueChars indent 0 v)

end Json

namespace Value

/-- A value as JSON text on one line. -/
def json (v : Value) : String :=
  Json.render 0 v

/-- A value as it leaves a command: null is empty, texts are themselves, containers are JSON. -/
def pipeText : Value → String
  | .null => ""
  | .bool b => if b then "true" else "false"
  | .number n => n.text
  | .text s => s
  | .scalar (.moment m) => m.text
  | container => container.json

end Value

end PipeScript

/-!
# Lines

Reading a file turns every line end into a line feed; a script is then cut at every character that
ends a line in some convention.
-/

namespace PipeScript.Text

/-- Turns carriage returns, alone or before a line feed, into line feeds. -/
def unifyLineEndsChars : List Char → List Char
  | [] => []
  | '\r' :: '\n' :: rest => '\n' :: unifyLineEndsChars rest
  | '\r' :: rest => '\n' :: unifyLineEndsChars rest
  | c :: rest => c :: unifyLineEndsChars rest

/-- Turns carriage returns, alone or before a line feed, into line feeds. -/
def unifyLineEnds (s : String) : String :=
  String.ofList (unifyLineEndsChars s.toList)

/-- Characters that end a line, once carriage returns are gone. -/
def endsLine (c : Char) : Bool :=
  c == '\n' || c == '\x0b' || c == '\x0c' || c == '\x1c' || c == '\x1d' || c == '\x1e' ||
    c == '\u0085' || c == '\u2028' || c == '\u2029' || c == '\r'

/-- Cuts at every line end; `line` is the current line, last character first.  Nothing follows a
line end that closes the text. -/
def linesFrom (line : List Char) : List Char → List (List Char)
  | [] => if line.isEmpty then [] else [line.reverse]
  | c :: rest => if endsLine c then line.reverse :: linesFrom [] rest else linesFrom (c :: line) rest

/-- The lines of a text whose line ends are unified. -/
def lines (s : String) : List String :=
  (linesFrom [] s.toList).map String.ofList

end PipeScript.Text

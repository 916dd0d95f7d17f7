/-!
# Places in a document

A document is read from left to right by a cursor.  Layout depends on lines and columns, so the cursor
counts them; a carriage return before a line feed does not end the line by itself, and a byte order
mark takes no column.
-/

namespace PipeScript.Yaml

/-- Characters that end a line. -/
def isBreak (c : Char) : Bool :=
  c == '\n' || c == '\r' || c == '\u0085' || c == '\u2028' || c == '\u2029'

def isSpaceOrTab (c : Char) : Bool :=
  c == ' ' || c == '\t'

/-- The byte order mark. -/
def byteOrderMark : Char := '\ufeff'

/-- Characters that a document may consist of. -/
def isAllowed (c : Char) : Bool :=
  let n := c.toNat
  n == 0x09 || n == 0x0A || n == 0x0D || (0x20 ≤ n && n ≤ 0x7E) || n == 0x85 ||
    (0xA0 ≤ n && n ≤ 0xD7FF) || (0xE000 ≤ n && n ≤ 0xFFFD) || 0x10000 ≤ n

/-- What may stand after an indicator: a space, a tab, a line end or the end of the text. -/
def separates : Option Char → Bool
  | none => true
  | some c => isSpaceOrTab c || isBreak c

/-- A line end or the end of the text. -/
def closesLine : Option Char → Bool
  | none => true
  | some c => isBreak c

/-- A space, a line end or the end of the text. -/
def endsWord : Option Char → Bool
  | none => true
  | some c => c == ' ' || isBreak c

/-- The text that is left, and where it starts. -/
structure Cursor where
  rest : List Char
  index : Nat
  line : Nat
  column : Nat

namespace Cursor

def start (cs : List Char) : Cursor := ⟨cs, 0, 0, 0⟩

/-- The next character. -/
def peek? (c : Cursor) : Option Char := c.rest.head?

/-- Behind the next character. -/
def next (c : Cursor) : Cursor :=
  match c.rest with
  | [] => c
  | x :: rest =>
    if isBreak x && !(x == '\r' && rest.head? == some '\n') then ⟨rest, c.index + 1, c.line + 1, 0⟩
    else ⟨rest, c.index + 1, c.line, if x == byteOrderMark then c.column else c.column + 1⟩

/-- Behind a number of characters. -/
def forward : Nat → Cursor → Cursor
  | 0, c => c
  | n + 1, c => forward n c.next

/-- The characters up to the first that fails a test, and the place behind them. -/
def span (p : Char → Bool) (c : Cursor) : List Char × Cursor :=
  let run := c.rest.takeWhile p
  (run, c.forward run.length)

def skip (p : Char → Bool) (c : Cursor) : Cursor :=
  (c.span p).2

/-- Behind the spaces that come next, as long as the column is less than `column`. -/
def indentTo (column : Nat) (c : Cursor) : Cursor :=
  c.forward (min (c.rest.takeWhile (· == ' ')).length (column - c.column))

/-- Behind a comment, if one comes next. -/
def skipComment (c : Cursor) : Cursor :=
  if c.peek? == some '#' then c.skip (!isBreak ·) else c

/-- The line end that comes next, with all usual spellings made a line feed. -/
def takeBreak? (c : Cursor) : Option (Char × Cursor) :=
  match c.rest with
  | '\r' :: '\n' :: _ => some ('\n', c.forward 2)
  | x :: _ =>
    if x == '\u2028' || x == '\u2029' then some (x, c.next)
    else if isBreak x then some ('\n', c.next)
    else none
  | [] => none

/-- Behind the line end that comes next, if any. -/
def skipBreak (c : Cursor) : Cursor :=
  (c.takeBreak?.map Prod.snd).getD c

/-- Whether three marks stand here by themselves. -/
def atMarks (mark : Char) (c : Cursor) : Bool :=
  match c.rest with
  | x :: y :: z :: rest => x == mark && y == mark && z == mark && separates rest.head?
  | _ => false

/-- Whether the text of a document ends here, although more follows. -/
def atDocumentMark (c : Cursor) : Bool :=
  c.atMarks '-' || c.atMarks '.'

end Cursor

end PipeScript.Yaml

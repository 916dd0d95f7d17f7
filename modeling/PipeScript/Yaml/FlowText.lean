import PipeScript.Yaml.Label

/-!
# Quoted and plain text

Texts that are written on one line or folded over several: one line end inside them counts as a space,
and further line ends count for themselves.  A text between double quotes has escapes, a text between
single quotes doubles its quotes, and a plain text ends where something else could begin.
-/

namespace PipeScript.Yaml

open Text

/-! ### Quoted text -/

/-- Reads the empty lines that come next, and the blanks before what follows them. -/
def scanEmptyLines : (fuel : Nat) → Cursor → Except Failure (List Char × Cursor)
  | 0, _ => .error .malformed
  | fuel + 1, c =>
    if c.atDocumentMark then .error .malformed
    else
      match (c.skip isSpaceOrTab).takeBreak? with
      | some (lineEnd, c) => do
        let (more, c) ← scanEmptyLines fuel c
        return (lineEnd :: more, c)
      | none => .ok ([], c.skip isSpaceOrTab)

/-- What stands for a line end and the empty lines below it. -/
def folded (lineEnd : Char) (emptyLines : List Char) : List Char :=
  if lineEnd != '\n' then lineEnd :: emptyLines
  else if emptyLines.isEmpty then [' ']
  else emptyLines

/-- Reads blanks or line ends between the words of a quoted text. -/
def scanQuotedGap (c : Cursor) : Except Failure (List Char × Cursor) :=
  let (blanks, c) := c.span isSpaceOrTab
  match c.takeBreak? with
  | some (lineEnd, c) => do
    let (emptyLines, c) ← scanEmptyLines (c.rest.length + 1) c
    return (folded lineEnd emptyLines, c)
  | none => .ok (blanks, c)

/-- The character that a letter after a backslash stands for. -/
def namedEscape? (c : Char) : Option Char :=
  [('0', '\x00'), ('a', '\x07'), ('b', '\x08'), ('t', '\t'), ('\t', '\t'), ('n', '\n'),
    ('v', '\x0b'), ('f', '\x0c'), ('r', '\r'), ('e', '\x1b'), (' ', ' '), ('"', '"'), ('\\', '\\'),
    ('/', '/'), ('N', '\u0085'), ('_', '\u00a0'), ('L', '\u2028'), ('P', '\u2029')].lookup c

/-- The number of digits that follow a letter after a backslash. -/
def escapeWidth? (c : Char) : Option Nat :=
  [('x', 2), ('u', 4), ('U', 8)].lookup c

/-- The character of a code point.  A surrogate alone is none, as texts are made of characters; a
replacement character stands for it. -/
def characterOf (code : Nat) : Except Failure Char :=
  if code > 0x10FFFF then .error (.meaningless (.document (.codePoint code)))
  else if 0xD800 ≤ code && code < 0xE000 then .ok '\ufffd'
  else .ok (Char.ofNat code)

/-- Reads an escape behind its backslash. -/
def scanEscape (c : Cursor) : Except Failure (List Char × Cursor) :=
  match c.peek? with
  | none => .error .malformed
  | some x =>
    match namedEscape? x, escapeWidth? x with
    | some character, _ => .ok ([character], c.next)
    | none, some width =>
      let digits := c.next.rest.take width
      match radixValue? 16 digits with
      | some code =>
        if digits.length < width then .error .malformed
        else do return ([← characterOf code], c.next.forward width)
      | none => .error .malformed
    | none, none =>
      match c.takeBreak? with
      | some (_, c) => scanEmptyLines (c.rest.length + 1) c
      | none => .error .malformed

/-- Reads a quoted text behind its opening quote, with the closing one. -/
def scanQuoted (quote : Char) : (fuel : Nat) → Cursor → Except Failure (List Char × Cursor)
  | 0, _ => .error .malformed
  | fuel + 1, c =>
    match c.rest with
    | [] => .error .malformed
    | x :: rest =>
      if x == quote then
        if quote == '\'' && rest.head? == some '\'' then do
          let (more, c) ← scanQuoted quote fuel (c.forward 2)
          return ('\'' :: more, c)
        else .ok ([], c.next)
      else do
        let (part, c) ←
          if quote == '"' && x == '\\' then scanEscape c.next
          else if isSpaceOrTab x || isBreak x then scanQuotedGap c
          else .ok ([x], c.next)
        let (more, c) ← scanQuoted quote fuel c
        return (part ++ more, c)

/-! ### Plain text -/

/-- The characters that bound items between brackets. -/
def isFlowIndicator (c : Char) : Bool :=
  c == ',' || c == '[' || c == ']' || c == '\x7b' || c == '\x7d'

/-- Whether a plain text can start here. -/
def startsPlain (inFlow : Bool) (c : Cursor) : Bool :=
  match c.rest with
  | [] => false
  | x :: rest =>
    let special := "-?:,[]\x7b\x7d#&*!|>'\"%@\x60".toList.contains x || separates (some x)
    !special || (!separates rest.head? && (x == '-' || (!inFlow && (x == '?' || x == ':'))))

/-- Whether a plain text ends before a character, given the one after it. -/
def endsPlain (inFlow : Bool) (x : Char) (after : Option Char) : Bool :=
  separates (some x) ||
    (x == ':' && (separates after || (inFlow && after.any isFlowIndicator))) ||
    (inFlow && (isFlowIndicator x || x == '?'))

/-- The number of characters of a plain text up to a blank or an indicator. -/
def plainLength (inFlow : Bool) : List Char → Nat
  | [] => 0
  | x :: rest => if endsPlain inFlow x rest.head? then 0 else plainLength inFlow rest + 1

/-- The line ends of the empty lines that come next; none if the document ends at one of them. -/
def plainEmptyLines : (fuel : Nat) → Cursor → Option (List Char) × Cursor
  | 0, c => (none, c)
  | fuel + 1, c =>
    match (c.skip (· == ' ')).takeBreak? with
    | none => (some [], c.skip (· == ' '))
    | some (lineEnd, c) =>
      if c.atDocumentMark then (none, c)
      else
        let (more, c) := plainEmptyLines fuel c
        (more.map (lineEnd :: ·), c)

/-- What lies between two runs of a plain text. -/
structure PlainGap where
  /-- What stands for it inside the text; none if the text cannot go on. -/
  text : Option (List Char)
  crossesLine : Bool
  after : Cursor

def plainGap (c : Cursor) : PlainGap :=
  let (spaces, c) := c.span (· == ' ')
  match c.takeBreak? with
  | none => ⟨if spaces.isEmpty then none else some spaces, false, c⟩
  | some (lineEnd, c) =>
    if c.atDocumentMark then ⟨none, true, c⟩
    else
      let (emptyLines, c) := plainEmptyLines (c.rest.length + 1) c
      ⟨emptyLines.map (folded lineEnd), true, c⟩

/-- A plain text: its characters, whether a line end follows it, and what follows. -/
structure PlainText where
  text : List Char
  crossesLine : Bool
  after : Cursor

/-- Reads a plain text.  Outside brackets, a line that is indented less than `indent` ends it. -/
def plainText (inFlow : Bool) (indent : Nat) : (fuel : Nat) → (crossed : Bool) → Cursor → PlainText
  | 0, crossed, c => ⟨[], crossed, c⟩
  | fuel + 1, crossed, c =>
    match plainLength inFlow c.rest with
    | 0 => ⟨[], crossed, c⟩
    | length =>
      let run := c.rest.take length
      let gap := plainGap (c.forward length)
      let after := gap.after
      match gap.text with
      | none => ⟨run, gap.crossesLine, after⟩
      | some between =>
        if after.peek? == some '#' || (!inFlow && after.column < indent) then
          ⟨run, gap.crossesLine, after⟩
        else
          let more := plainText inFlow indent fuel gap.crossesLine after
          ⟨if more.text.isEmpty then run else run ++ between ++ more.text, more.crossesLine, more.after⟩

end PipeScript.Yaml

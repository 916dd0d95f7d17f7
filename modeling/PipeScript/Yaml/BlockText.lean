import PipeScript.Yaml.Label

/-!
# Block text

Texts that are written as indented lines below an indicator.  A bar keeps the line ends; an angle
bracket folds them, save next to lines that start with a blank.  What becomes of the line ends after
the last line is said in the header, and so may be the indentation.
-/

namespace PipeScript.Yaml

open Text

/-- What becomes of the line ends after the last line. -/
inductive Chomping where
  /-- The first one stays. -/
  | clip
  | strip
  | keep

def chomping? (c : Char) : Option Chomping :=
  if c == '+' then some .keep else if c == '-' then some .strip else none

/-- An indentation from one to nine. -/
def increment? (c : Char) : Option Nat :=
  if isAsciiDigit c then some (digitValue c) else none

/-- The header of a block text. -/
structure BlockHeader where
  chomping : Chomping
  increment : Option Nat

/-- Takes a character from the front if it means something. -/
def takeMeaning {α : Type} (meaning? : Char → Option α) (c : Cursor) : Option α × Cursor :=
  match c.peek?.bind meaning? with
  | some x => (some x, c.next)
  | none => (none, c)

/-- Reads the header behind its indicator, with the end of its line. -/
def scanBlockHeader (c : Cursor) : Except Failure (BlockHeader × Cursor) := do
  let (early, c) := takeMeaning chomping? c
  let (increment, c) := takeMeaning increment? c
  let (chomping, c) :=
    match early, increment with
    | none, some _ => takeMeaning chomping? c
    | _, _ => (early, c)
  if increment == some 0 || !endsWord c.peek? then .error .malformed
  else return (⟨chomping.getD .clip, increment⟩, ← scanLineRest c)

/-- Reads empty lines, up to the indentation of what follows them. -/
def blockEmptyLines (indent : Nat) : (fuel : Nat) → Cursor → List Char × Cursor
  | 0, c => ([], c)
  | fuel + 1, c =>
    match (c.indentTo indent).takeBreak? with
    | some (lineEnd, c) =>
      let (more, c) := blockEmptyLines indent fuel c
      (lineEnd :: more, c)
    | none => ([], c.indentTo indent)

/-- Reads the empty lines before the first line, and the widest indentation seen. -/
def leadingEmptyLines : (fuel widest : Nat) → Cursor → List Char × Nat × Cursor
  | 0, widest, c => ([], widest, c)
  | fuel + 1, widest, c =>
    let (spaces, c) := c.span (· == ' ')
    let widest := if spaces.isEmpty then widest else max widest c.column
    match c.takeBreak? with
    | some (lineEnd, c) =>
      let (more, widest, c) := leadingEmptyLines fuel widest c
      (lineEnd :: more, widest, c)
    | none => ([], widest, c)

/-- The lines of a block text: what they say, the last line end, and the empty lines below it. -/
structure BlockLines where
  text : List Char
  lineEnd : List Char
  emptyLines : List Char
  after : Cursor

/-- Whether the cursor stands at a line of a block text. -/
def atBlockLine (indent : Nat) (c : Cursor) : Bool :=
  c.column == indent && !c.rest.isEmpty

/-- Reads the lines of a block text; `emptyLines` are the line ends above the next one. -/
def blockLines (fold : Bool) (indent : Nat) : (fuel : Nat) → (emptyLines : List Char) → Cursor → BlockLines
  | 0, emptyLines, c => ⟨[], [], emptyLines, c⟩
  | fuel + 1, emptyLines, c =>
    if !atBlockLine indent c then ⟨[], [], emptyLines, c⟩
    else
      let indented := c.peek?.any isSpaceOrTab
      let (line, c) := c.span (!isBreak ·)
      let (lineEnd, c) : List Char × Cursor :=
        match c.takeBreak? with
        | some (lineEnd, c) => ([lineEnd], c)
        | none => ([], c)
      let (below, c) := blockEmptyLines indent (c.rest.length + 1) c
      if atBlockLine indent c then
        let folds := fold && lineEnd == ['\n'] && !indented && !c.peek?.any isSpaceOrTab
        let joint := if !folds then lineEnd else if below.isEmpty then [' '] else []
        let more := blockLines fold indent fuel below c
        { more with text := emptyLines ++ line ++ joint ++ more.text }
      else ⟨emptyLines ++ line, lineEnd, below, c⟩

/-- Reads a block text behind its indicator, when its lines are indented by `least` at least. -/
def scanBlockText (fold : Bool) (least : Nat) (c : Cursor) : Except Failure (List Char × Cursor) := do
  let (header, c) ← scanBlockHeader c
  let fuel := c.rest.length + 1
  let (emptyLines, indent, c) :=
    match header.increment with
    | some increment =>
      let indent := least + increment - 1
      let (emptyLines, c) := blockEmptyLines indent fuel c
      (emptyLines, indent, c)
    | none =>
      let (emptyLines, widest, c) := leadingEmptyLines fuel 0 c
      (emptyLines, max least widest, c)
  let lines := blockLines fold indent fuel emptyLines c
  let tail := match header.chomping with
    | .strip => []
    | .clip => lines.lineEnd
    | .keep => lines.lineEnd ++ lines.emptyLines
  return (lines.text ++ tail, lines.after)

end PipeScript.Yaml

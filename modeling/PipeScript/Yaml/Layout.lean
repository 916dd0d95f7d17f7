import PipeScript.Yaml.BlockText
import PipeScript.Yaml.FlowText

/-!
# From text to tokens

The layout of a document decides where blocks open and close and what is a key.  A block opens where
an entry or a key stands further right than the block around it, and closes before the first token
that stands further left.  Whether a node is a key shows only at the colon behind it, so the place of
every node that could be one is kept until the line ends or the colon is too far away; the key token
is then put in front of the node.  A node that stands where only a key may stand must be one.
-/

namespace PipeScript.Yaml

/-- The place of a node that may turn out to be a key. -/
structure KeyCandidate where
  /-- The number of tokens before it. -/
  position : Nat
  /-- Whether nothing but a key is allowed there. -/
  required : Bool
  index : Nat
  line : Nat
  column : Nat

/-- What is known between two tokens. -/
structure Layout where
  cursor : Cursor
  /-- The tokens so far, latest first, and their number. -/
  tokens : List Token
  count : Nat
  /-- The columns of the open blocks, innermost first. -/
  blocks : List Nat
  /-- The key candidates: one at most for the blocks, and for every open bracket; innermost first. -/
  candidates : List (Option KeyCandidate)
  /-- Whether a key may start here. -/
  keyAllowed : Bool

namespace Layout

def start (cs : List Char) : Layout := ⟨.start cs, [], 0, [], [none], true⟩

/-- Whether the cursor is between brackets. -/
def inFlow (l : Layout) : Bool := l.candidates.length > 1

/-- The least column right of the innermost block. -/
def margin (l : Layout) : Nat :=
  match l.blocks with
  | column :: _ => column + 1
  | [] => 0

def emit (token : Token) (l : Layout) : Layout :=
  { l with tokens := token :: l.tokens, count := l.count + 1 }

/-- Puts a token at a position among those so far. -/
def emitAt (position : Nat) (token : Token) (l : Layout) : Layout :=
  let later := l.count - position
  { l with
    tokens := l.tokens.take later ++ token :: l.tokens.drop later
    count := l.count + 1 }

/-- Passes a number of characters. -/
def pass (n : Nat) (l : Layout) : Layout :=
  { l with cursor := l.cursor.forward n }

/-! ### Blocks -/

/-- Closes the blocks right of a column; between brackets there are none to close. -/
def closeBlocks (column : Nat) (l : Layout) : Layout :=
  if l.inFlow then l
  else
    let closed := (l.blocks.takeWhile (column < ·)).length
    { l with
      tokens := List.replicate closed .blockEnd ++ l.tokens
      count := l.count + closed
      blocks := l.blocks.drop closed }

/-- Closes all blocks. -/
def closeAllBlocks (l : Layout) : Layout :=
  if l.inFlow then l
  else
    { l with
      tokens := List.replicate l.blocks.length .blockEnd ++ l.tokens
      count := l.count + l.blocks.length
      blocks := [] }

/-- Opens a block at a column right of the innermost one, with a token at a position. -/
def openBlock (column position : Nat) (token : Token) (l : Layout) : Layout :=
  if l.margin ≤ column then emitAt position token { l with blocks := column :: l.blocks } else l

/-! ### Keys -/

/-- Gives up a candidate. -/
def giveUp : Option KeyCandidate → Except Failure (Option KeyCandidate)
  | some key => if key.required then .error .malformed else .ok none
  | none => .ok none

/-- Gives up the candidate between the innermost brackets. -/
def dropCandidate (l : Layout) : Except Failure Layout := do
  match l.candidates with
  | key :: outer => return { l with candidates := (← giveUp key) :: outer }
  | [] => return l

/-- Gives up the candidates of other lines and those too far away. -/
def dropStale (l : Layout) : Except Failure Layout := do
  let candidates ← l.candidates.mapM fun key =>
    match key with
    | some k =>
      if k.line ≠ l.cursor.line || l.cursor.index - k.index > 1024 then giveUp key else .ok key
    | none => .ok none
  return { l with candidates }

/-- Makes the node that starts here a candidate, where a key may start. -/
def addCandidate (l : Layout) : Except Failure Layout := do
  if l.keyAllowed then
    let l ← l.dropCandidate
    let c := l.cursor
    let required := !l.inFlow && l.blocks.head? == some c.column
    return { l with candidates := some ⟨l.count, required, c.index, c.line, c.column⟩ :: l.candidates.tail }
  else return l

/-! ### Tokens -/

/-- Behind spaces, comments and line ends; outside brackets a key may follow a line end. -/
def skipToToken : (fuel : Nat) → Layout → Layout
  | 0, l => l
  | fuel + 1, l =>
    let c := (l.cursor.skip (· == ' ')).skipComment
    match c.takeBreak? with
    | some (_, c) => skipToToken fuel { l with cursor := c, keyAllowed := l.keyAllowed || !l.inFlow }
    | none => { l with cursor := c }

/-- Behind a byte order mark at the very start. -/
def skipMark (l : Layout) : Layout :=
  if l.cursor.index = 0 && l.cursor.peek? == some byteOrderMark then l.pass 1 else l

/-- A token that ends all blocks, read by `scan`. -/
def topLevel (scan : Cursor → Except Failure (Token × Cursor)) (l : Layout) : Except Failure Layout := do
  let l ← l.closeAllBlocks.dropCandidate
  let (token, cursor) ← scan l.cursor
  return emit token { l with cursor, keyAllowed := false }

/-- An opening bracket. -/
def openFlow (token : Token) (l : Layout) : Except Failure Layout := do
  let l ← l.addCandidate
  return emit token { l.pass 1 with candidates := none :: l.candidates, keyAllowed := true }

/-- A closing bracket. -/
def closeFlow (token : Token) (l : Layout) : Except Failure Layout := do
  let l ← l.dropCandidate
  if l.inFlow then
    return emit token { l.pass 1 with candidates := l.candidates.tail, keyAllowed := false }
  else .error .malformed

/-- A comma between brackets. -/
def flowEntry (l : Layout) : Except Failure Layout := do
  return emit .flowEntry { (← l.dropCandidate).pass 1 with keyAllowed := true }

/-- The dash of a list entry. -/
def blockEntry (l : Layout) : Except Failure Layout := do
  let l ←
    if l.inFlow then .ok l
    else if l.keyAllowed then .ok (l.openBlock l.cursor.column l.count .blockList)
    else .error .malformed
  return emit .blockEntry { (← l.dropCandidate).pass 1 with keyAllowed := true }

/-- The question mark of a key. -/
def explicitKey (l : Layout) : Except Failure Layout := do
  let l ←
    if l.inFlow then .ok l
    else if l.keyAllowed then .ok (l.openBlock l.cursor.column l.count .blockDict)
    else .error .malformed
  return emit .key { (← l.dropCandidate).pass 1 with keyAllowed := !l.inFlow }

/-- The colon before an item: what stands before it on the line is its key, if a candidate is left. -/
def item (l : Layout) : Except Failure Layout := do
  match l.candidates with
  | some key :: outer =>
    let l := { l with candidates := none :: outer }.emitAt key.position .key
    let l := if l.inFlow then l else l.openBlock key.column key.position .blockDict
    return emit .value { l.pass 1 with keyAllowed := false }
  | _ =>
    let l ←
      if l.inFlow then .ok l
      else if l.keyAllowed then .ok (l.openBlock l.cursor.column l.count .blockDict)
      else .error .malformed
    return emit .value { (← l.dropCandidate).pass 1 with keyAllowed := !l.inFlow }

/-- A part of a node that stays on its line, read by `scan`. -/
def nodePart (scan : Cursor → Except Failure (Token × Cursor)) (l : Layout) : Except Failure Layout := do
  let l ← l.addCandidate
  let (token, cursor) ← scan l.cursor
  return emit token { l with cursor, keyAllowed := false }

/-- A plain text; a key may follow it on a later line. -/
def plain (l : Layout) : Except Failure Layout := do
  let l ← l.addCandidate
  let t := plainText l.inFlow l.margin (l.cursor.rest.length + 1) false l.cursor
  return emit (.scalar t.text true) { l with cursor := t.after, keyAllowed := t.crossesLine }

/-- A block text. -/
def blockText (fold : Bool) (l : Layout) : Except Failure Layout := do
  let l ← l.dropCandidate
  let (text, cursor) ← scanBlockText fold (max l.margin 1) l.cursor.next
  return emit (.scalar text false) { l with cursor, keyAllowed := true }

/-- Reads a quoted text at its opening quote. -/
def scanQuotedToken (quote : Char) (c : Cursor) : Except Failure (Token × Cursor) := do
  let (text, c) ← scanQuoted quote (c.rest.length + 1) c.next
  return (.scalar text false, c)

/-- Reads a name behind its indicator as a token. -/
def scanNameToken (make : String → Token) (c : Cursor) : Except Failure (Token × Cursor) := do
  let (name, c) ← scanName c.next
  return (make name, c)

def scanTagToken (c : Cursor) : Except Failure (Token × Cursor) := do
  let (t, c) ← scanTag c
  return (.tag t, c)

def scanDirectiveToken (c : Cursor) : Except Failure (Token × Cursor) := do
  let (d, c) ← scanDirective c.next
  return (.directive d, c)

/-- Reads the token that starts with a character at the cursor. -/
def token (x : Char) (l : Layout) : Except Failure Layout :=
  let c := l.cursor
  let alone := separates c.next.peek?
  if x == '%' && c.column == 0 then l.topLevel scanDirectiveToken
  else if c.column == 0 && c.atMarks '-' then l.topLevel fun c => .ok (.documentStart, c.forward 3)
  else if c.column == 0 && c.atMarks '.' then l.topLevel fun c => .ok (.documentEnd, c.forward 3)
  else if x == '[' then l.openFlow .flowList
  else if x == '\x7b' then l.openFlow .flowDict
  else if x == ']' then l.closeFlow .flowListEnd
  else if x == '\x7d' then l.closeFlow .flowDictEnd
  else if x == ',' then l.flowEntry
  else if x == '-' && alone then l.blockEntry
  else if x == '?' && (l.inFlow || alone) then l.explicitKey
  else if x == ':' && (l.inFlow || alone) then l.item
  else if x == '*' then l.nodePart (scanNameToken .alias)
  else if x == '&' then l.nodePart (scanNameToken .anchor)
  else if x == '!' then l.nodePart scanTagToken
  else if x == '|' && !l.inFlow then l.blockText false
  else if x == '>' && !l.inFlow then l.blockText true
  else if x == '\'' || x == '"' then l.nodePart (scanQuotedToken x)
  else if startsPlain l.inFlow c then l.plain
  else .error .malformed

/-- Reads all tokens; what cannot be read ends them. -/
def readAll : (fuel : Nat) → Layout → List Token
  | 0, l => (.broken .malformed :: l.tokens).reverse
  | fuel + 1, l =>
    let l := l.skipMark.skipToToken (l.cursor.rest.length + 1)
    match l.dropStale with
    | .error failure => (.broken failure :: l.tokens).reverse
    | .ok l =>
      let l := l.closeBlocks l.cursor.column
      match l.cursor.peek? with
      | none =>
        match l.closeAllBlocks.dropCandidate with
        | .error failure => (.broken failure :: l.tokens).reverse
        | .ok l => (.streamEnd :: l.tokens).reverse
      | some x =>
        match l.token x with
        | .error failure => (.broken failure :: l.tokens).reverse
        | .ok l => readAll fuel l

end Layout

/-- The tokens of a text. -/
def tokens (cs : List Char) : List Token :=
  if cs.all isAllowed then Layout.readAll (cs.length + 2) (.start cs) else [.broken .malformed]

end PipeScript.Yaml

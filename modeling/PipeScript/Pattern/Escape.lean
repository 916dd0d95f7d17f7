import PipeScript.Pattern.Token
import PipeScript.Number.Reader
import PipeScript.Text.Quoted

/-!
# Escapes in patterns

A backslash with a letter or a digit stands for a character, a class of characters, a condition on
the position or an earlier group; with any other character it stands for that character.
-/

namespace PipeScript

namespace Pattern

open Reading

/-- Characters that a letter after a backslash stands for, everywhere in a pattern. -/
def controlEscape? (c : Char) : Option Nat :=
  if c = 'a' then some 7
  else if c = 'f' then some 12
  else if c = 'n' then some 10
  else if c = 'r' then some 13
  else if c = 't' then some 9
  else if c = 'v' then some 11
  else if c = '\\' then some 92
  else none

/-- Classes that a letter after a backslash stands for. -/
def kindEscape? (ascii : Bool) (c : Char) : Option Member :=
  if c = 'd' then some (.kind .digit false ascii)
  else if c = 'D' then some (.kind .digit true ascii)
  else if c = 's' then some (.kind .space false ascii)
  else if c = 'S' then some (.kind .space true ascii)
  else if c = 'w' then some (.kind .word false ascii)
  else if c = 'W' then some (.kind .word true ascii)
  else none

/-- Conditions that a letter after a backslash stands for. -/
def anchorEscape? (ascii : Bool) (c : Char) : Option Anchor :=
  if c = 'A' then some .textStart
  else if c = 'b' then some (.boundary false ascii)
  else if c = 'B' then some (.boundary true ascii)
  else if c = 'Z' then some .textEnd
  else none

/-- Fails with the whole escape as its place. -/
def failEscape {α : Type} (problem : String) (escape : List Char) : Reading α :=
  failBack (problem ++ " " ++ String.ofList escape) escape.length

/-- The code point of a fixed number of hexadecimal digits. -/
def readHexEscape (letter : Char) (count : Nat) : Reading Nat := do
  let digits ← takeWhile Token.isHex count
  let escape := '\\' :: letter :: digits
  if digits.length ≠ count then failEscape "incomplete escape" escape
  else
    let code := (radixValue? 16 digits).getD 0
    if code > 0x10FFFF then failEscape "bad escape" escape else return code

/-- A character by its name; no names are known. -/
def readNamedEscape : Reading Nat := do
  if ← accept '\x7b' then
    let name ← takeName '\x7d' "character name"
    failBack ("undefined character name " ++ Text.quoted (String.ofList name)) (name.length + 4)
  else failBack "missing \x7b" 0

/-- The value of octal digits, at most that of a byte. -/
def octalCode (digits : List Char) : Reading Nat := do
  let code := (radixValue? 8 digits).getD 0
  if code > 0o377 then
    failBack ("octal escape value " ++ String.ofList ('\\' :: digits) ++
      " outside of range 0-0o377") (digits.length + 1)
  else return code

/-- Escapes with digits after a letter. -/
def readCodedEscape? (c : Char) : Reading (Option Nat) := do
  if c = 'x' then return some (← readHexEscape c 2)
  else if c = 'u' then return some (← readHexEscape c 4)
  else if c = 'U' then return some (← readHexEscape c 8)
  else if c = 'N' then return some (← readNamedEscape)
  else return none

/-- The member that an escape inside a character set stands for. -/
def readSetEscape (ascii : Bool) (c : Char) : Reading Member := do
  if c = 'b' then return .point 8
  else
    match controlEscape? c, kindEscape? ascii c with
    | some code, _ => return .point code
    | none, some m => return m
    | none, none =>
      match ← readCodedEscape? c with
      | some code => return .point code
      | none =>
        if (Token.plain c).isOctal then
          return .point (← octalCode (c :: (← takeWhile Token.isOctal 2)))
        else if Text.isAsciiDigit c || Text.isAsciiLetter c then failEscape "bad escape" ['\\', c]
        else return .point c.toNat

/-- Whether a group is closed. -/
def Reader.isClosed (s : Reader) (index : Nat) : Bool :=
  ((s.groups[index]?).join).isSome

/-- Refuses groups that cannot be known yet inside a look behind. -/
def checkBehind (index : Nat) : Reading Unit := do
  let s ← get
  match s.behind with
  | none => return
  | some known =>
    if !s.isClosed index then failBack "cannot refer to an open group" 0
    else if known ≤ index then
      failBack "cannot refer to group defined in the same lookbehind subpattern" 0

/-- A reference to an earlier group by its number. -/
def groupReference (fold : Fold) (digits : List Char) : Reading Node := do
  let index := digitsValue digits
  let s ← get
  if index < s.groups.size then
    if !s.isClosed index then failBack "cannot refer to an open group" (digits.length + 1)
    else
      checkBehind index
      return .backref fold index
  else failBack s!"invalid group reference {index}" digits.length

/-- A number after a backslash: three octal digits make a character, all else a group. -/
def readNumberEscape (fold : Fold) (c : Char) : Reading Node := do
  if c = '0' then
    let digits ← takeWhile Token.isOctal 2
    return .single (.set fold false [.point ((radixValue? 8 (c :: digits)).getD 0)])
  else
    match ← takeWhile Token.isDigit 1 with
    | [d] =>
      if (Token.plain c).isOctal && (Token.plain d).isOctal &&
          ((← peek?).any Token.isOctal) then
        let last ← takeWhile Token.isOctal 1
        return .single (.set fold false [.point (← octalCode (c :: d :: last))])
      else groupReference fold [c, d]
    | _ => groupReference fold [c]

/-- The part that an escape outside character sets stands for. -/
def readEscape (c : Char) : Reading Node := do
  let mode := (← get).mode
  let single (m : Member) : Node := .single (.set mode.fold false [m])
  match anchorEscape? mode.ascii c, kindEscape? mode.ascii c, controlEscape? c with
  | some a, _, _ => return .anchor a
  | none, some m, _ => return single m
  | none, none, some code => return single (.point code)
  | none, none, none =>
    match ← readCodedEscape? c with
    | some code => return single (.point code)
    | none =>
      if Text.isAsciiDigit c then readNumberEscape mode.fold c
      else if Text.isAsciiLetter c then failEscape "bad escape" ['\\', c]
      else return single (.point c.toNat)

end Pattern

end PipeScript

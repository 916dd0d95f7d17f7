import PipeScript.Number.Reader
import PipeScript.Yaml.Token

/-!
# Labels

Anchors, aliases and tags, which stand in front of a node, and directives, which stand in front of a
document.
-/

namespace PipeScript.Yaml

open Text

/-- Characters of names. -/
def isNameChar (c : Char) : Bool :=
  isAsciiLetter c || isAsciiDigit c || c == '-' || c == '_'

/-- Reads the name of an anchor behind its indicator. -/
def scanName (c : Cursor) : Except Failure (String × Cursor) :=
  let (name, after) := c.span isNameChar
  let closed := separates after.peek? || after.peek?.any ("?:,]\x7d%@\x60".toList.contains ·)
  if name.isEmpty || !closed then .error .malformed else .ok (String.ofList name, after)

/-! ### Tags -/

/-- Characters of tags, escapes aside. -/
def isTagChar (c : Char) : Bool :=
  isAsciiLetter c || isAsciiDigit c || "-;/?:@&=+$,_.!~*'()[]".toList.contains c

/-- The bytes of a run of escapes, and what follows it. -/
def escapedBytes? : List Char → Option (List UInt8 × List Char)
  | '%' :: high :: low :: rest => do
    let byte := (← hexValue? high) * 16 + (← hexValue? low)
    let (bytes, rest) ← escapedBytes? rest
    return (byte.toUInt8 :: bytes, rest)
  | '%' :: _ => none
  | cs => some ([], cs)

/-- Reads the characters of a tag, with the bytes of escapes as text. -/
def scanTagChars : (fuel : Nat) → Cursor → Except Failure (List Char × Cursor)
  | 0, _ => .error .malformed
  | fuel + 1, c =>
    let (run, c) := c.span isTagChar
    if c.peek? == some '%' then
      match escapedBytes? c.rest with
      | some (bytes, rest) =>
        match String.fromUTF8? ⟨bytes.toArray⟩ with
        | some text => do
          let (more, c) ← scanTagChars fuel (c.forward (c.rest.length - rest.length))
          return (run ++ text.toList ++ more, c)
        | none => .error .malformed
      | none => .error .malformed
    else .ok (run, c)

/-- Reads the written form of a tag or of its end. -/
def scanTagText (c : Cursor) : Except Failure (String × Cursor) :=
  if c.peek?.any fun x => isTagChar x || x == '%' then do
    let (text, c) ← scanTagChars (c.rest.length + 1) c
    return (String.ofList text, c)
  else .error .malformed

/-- Reads the short name of a tag: an exclamation mark, or a name between two of them. -/
def scanHandle (c : Cursor) : Except Failure (String × Cursor) :=
  if c.peek? != some '!' then .error .malformed
  else if c.next.peek? == some ' ' then .ok ("!", c.next)
  else
    let (name, after) := c.next.span isNameChar
    if after.peek? == some '!' then .ok ("!" ++ String.ofList name ++ "!", after.next)
    else .error .malformed

/-- Reads a whole tag behind its opening bracket. -/
def scanWholeTag (c : Cursor) : Except Failure (WrittenTag × Cursor) := do
  let (suffix, c) ← scanTagText c
  if c.peek? == some '>' then return (⟨none, suffix⟩, c.next) else .error .malformed

/-- Reads a tag with a short name. -/
def scanShortTag (c : Cursor) : Except Failure (WrittenTag × Cursor) := do
  let named := (c.next.rest.takeWhile (fun x => !endsWord (some x))).contains '!'
  let (handle, c) ← if named then scanHandle c else .ok ("!", c.next)
  let (suffix, c) ← scanTagText c
  return (⟨some handle, suffix⟩, c)

/-- Reads a tag at its exclamation mark. -/
def scanTag (c : Cursor) : Except Failure (WrittenTag × Cursor) := do
  let (tag, c) ←
    if c.next.peek? == some '<' then scanWholeTag (c.forward 2)
    else if separates c.next.peek? then .ok (⟨none, "!"⟩, c.next)
    else scanShortTag c
  if endsWord c.peek? then return (tag, c) else .error .malformed

/-! ### Directives -/

/-- Behind the rest of a line that may hold a comment only. -/
def scanLineRest (c : Cursor) : Except Failure Cursor :=
  let c := (c.skip (· == ' ')).skipComment
  if closesLine c.peek? then .ok c.skipBreak else .error .malformed

/-- Reads a part of a version. -/
def scanVersionPart (c : Cursor) : Except Failure (Nat × Cursor) :=
  let (digits, after) := c.span isAsciiDigit
  if digits.isEmpty then .error .malformed
  else if digits.length > integerDigitLimit then
    .error (.meaningless (.digitLimit (some digits.length)))
  else .ok (digitsValue digits, after)

/-- Reads a version and gives its first part. -/
def scanVersion (c : Cursor) : Except Failure (Directive × Cursor) := do
  let (major, c) ← scanVersionPart (c.skip (· == ' '))
  if c.peek? != some '.' then .error .malformed
  else
    let (_, c) ← scanVersionPart c.next
    if endsWord c.peek? then return (.version major, c) else .error .malformed

/-- Reads a short name for tags and what it stands for. -/
def scanShorthand (c : Cursor) : Except Failure (Directive × Cursor) := do
  let (handle, c) ← scanHandle (c.skip (· == ' '))
  if c.peek? != some ' ' then .error .malformed
  else
    let (expansion, c) ← scanTagText (c.skip (· == ' '))
    if endsWord c.peek? then return (.shorthand handle expansion, c) else .error .malformed

/-- Reads a directive behind its percent sign, with the end of its line. -/
def scanDirective (c : Cursor) : Except Failure (Directive × Cursor) := do
  let (name, c) := c.span isNameChar
  if name.isEmpty || !endsWord c.peek? then .error .malformed
  else
    let (directive, c) ←
      if name = "YAML".toList then scanVersion c
      else if name = "TAG".toList then scanShorthand c
      else .ok (.reserved, c.skip (!isBreak ·))
    return (directive, ← scanLineRest c)

end PipeScript.Yaml

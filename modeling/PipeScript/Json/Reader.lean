import PipeScript.Number.Reader
import PipeScript.Value.Basic

/-!
# Reading JSON

A strict reader of JSON text.  Integers and doubles stay apart: a numeral with a fraction or an
exponent is a double.  A repeated key keeps its first place and its last value.  Integers beyond
the digit limit, control characters in strings and anything after the value make the text unreadable.
Every step consumes a character, so the length of the text bounds the recursion.

A text here is made of Unicode characters, and a surrogate alone is none.  There are readers that take
an escape of one for a code unit of a string; such a string cannot be held here, so the text that
spells it is unreadable.  What is proved of commands and of texts says nothing of such strings.
-/

namespace PipeScript

namespace Json

open Text

/-- White space between tokens. -/
def isJsonSpace (c : Char) : Bool :=
  c == ' ' || c == '\t' || c == '\n' || c == '\r'

def skipSpace (cs : List Char) : List Char :=
  cs.dropWhile isJsonSpace

/-- The code unit of four hexadecimal digits. -/
def readUnit? : List Char → Option (Nat × List Char)
  | a :: b :: c :: d :: rest => do
    let n := (← hexValue? a) * 4096 + (← hexValue? b) * 256 + (← hexValue? c) * 16 + (← hexValue? d)
    return (n, rest)
  | _ => none

/-- The character of an escape after `\u`; two surrogates make one character, and one alone makes
none. -/
def readEscape? (cs : List Char) : Option (Char × List Char) := do
  let (high, rest) ← readUnit? cs
  if 0xD800 ≤ high && high < 0xDC00 then
    match rest with
    | '\\' :: 'u' :: more =>
      let (low, rest) ← readUnit? more
      if 0xDC00 ≤ low && low < 0xE000 then
        return (Char.ofNat (0x10000 + (high - 0xD800) * 0x400 + (low - 0xDC00)), rest)
      else none
    | _ => none
  else if 0xDC00 ≤ high && high < 0xE000 then none
  else return (Char.ofNat high, rest)

/-- The character that a letter after a backslash stands for. -/
def simpleEscape? (c : Char) : Option Char :=
  if c = '"' || c = '\\' || c = '/' then some c
  else if c = 'n' then some '\n'
  else if c = 'r' then some '\r'
  else if c = 't' then some '\t'
  else if c = 'b' then some '\x08'
  else if c = 'f' then some '\x0c'
  else none

/-- Reads a string after its opening quote, up to and with the closing one. -/
def readString? : (fuel : Nat) → List Char → Option (List Char × List Char)
  | 0, _ => none
  | _ + 1, [] => none
  | fuel + 1, c :: rest =>
    if c = '"' then some ([], rest)
    else if c = '\\' then
      match rest with
      | 'u' :: more => do
        let (x, rest) ← readEscape? more
        let (xs, rest) ← readString? fuel rest
        return (x :: xs, rest)
      | e :: more => do
        let x ← simpleEscape? e
        let (xs, rest) ← readString? fuel more
        return (x :: xs, rest)
      | [] => none
    else if c.toNat < 0x20 then none
    else do
      let (xs, rest) ← readString? fuel rest
      return (c :: xs, rest)

/-- Splits off the digits at the start. -/
def spanDigits (cs : List Char) : List Char × List Char :=
  (cs.takeWhile isAsciiDigit, cs.dropWhile isAsciiDigit)

/-- The fraction of a numeral: a point and at least one digit. -/
def readFraction (cs : List Char) : Option (List Char) × List Char :=
  match cs with
  | '.' :: rest =>
    let (digits, rest) := spanDigits rest
    if digits.isEmpty then (none, cs) else (some digits, rest)
  | _ => (none, cs)

/-- The exponent of a numeral: a mark, a sign and at least one digit. -/
def readPower (cs : List Char) : Option Int × List Char :=
  match cs with
  | mark :: rest =>
    if mark == 'e' || mark == 'E' then
      let (negative, body) := splitSign rest
      let (digits, rest) := spanDigits body
      if digits.isEmpty then (none, cs)
      else (some (if negative then -(digitsValue digits : Int) else digitsValue digits), rest)
    else (none, cs)
  | [] => (none, cs)

/-- The digits before the point: a lone zero, or digits that do not start with zero. -/
def readWhole? (cs : List Char) : Option (List Char × List Char) :=
  match cs with
  | '0' :: rest => some (['0'], rest)
  | c :: _ => if isAsciiDigit c then some (spanDigits cs) else none
  | [] => none

/-- Reads a number. -/
def readNumber? (cs : List Char) : Option (Number × List Char) := do
  let (negative, body) : Bool × List Char := match cs with
    | '-' :: rest => (true, rest)
    | _ => (false, cs)
  let (whole, rest) ← readWhole? body
  match readFraction rest with
  | (fraction, rest) =>
    match readPower rest with
    | (power, rest) =>
      if fraction.isNone && power.isNone then
        if whole.length > integerDigitLimit then none
        else return (.int (if negative then -(digitsValue whole : Int) else digitsValue whole), rest)
      else
        let numeral : Numeral := ⟨negative, whole, fraction.getD [], power.getD 0⟩
        return (.float numeral.toBinary64, rest)

/-- Reads a fixed word. -/
def readWord? (word : String) (v : Value) (cs : List Char) : Option (Value × List Char) :=
  if word.toList.isPrefixOf cs then some (v, cs.drop word.length) else none

/-- Numbers that are not finite, where they are let in. -/
def readNonFinite? (cs : List Char) : Option (Value × List Char) :=
  (readWord? "NaN" (.number .nan) cs).or
    ((readWord? "Infinity" (.number (.float (.infinite false))) cs).or
      (readWord? "-Infinity" (.number (.float (.infinite true))) cs))

/-- Reads a value that is no container. -/
def readScalar? (nonFinite : Bool) (cs : List Char) : Option (Value × List Char) :=
  match cs with
  | 'n' :: _ => readWord? "null" .null cs
  | 't' :: _ => readWord? "true" (.bool true) cs
  | 'f' :: _ => readWord? "false" (.bool false) cs
  | '"' :: rest =>
    (readString? (rest.length + 1) rest).map fun (xs, rest) => (.text (String.ofList xs), rest)
  | _ =>
    match readNumber? cs with
    | some (n, rest) => some (.number n, rest)
    | none => if nonFinite then readNonFinite? cs else none

mutual

/-- Reads a value. -/
def readValue? (nonFinite : Bool) : (fuel : Nat) → List Char → Option (Value × List Char)
  | 0, _ => none
  | fuel + 1, cs =>
    match cs with
    | '[' :: rest =>
      match skipSpace rest with
      | ']' :: rest => some (.list [], rest)
      | body => do
        let (items, rest) ← readItems? nonFinite fuel body
        return (.list items, rest)
    | '{' :: rest =>
      match skipSpace rest with
      | '}' :: rest => some (.dict [], rest)
      | body => do
        let (pairs, rest) ← readMembers? nonFinite fuel body
        return (.dict (Entries.ofPairs pairs), rest)
    | _ => readScalar? nonFinite cs

/-- Reads the items of a list up to and with its closing bracket. -/
def readItems? (nonFinite : Bool) : (fuel : Nat) → List Char → Option (List Value × List Char)
  | 0, _ => none
  | fuel + 1, cs => do
    let (item, rest) ← readValue? nonFinite fuel cs
    match skipSpace rest with
    | ']' :: rest => return ([item], rest)
    | ',' :: rest =>
      let (items, rest) ← readItems? nonFinite fuel (skipSpace rest)
      return (item :: items, rest)
    | _ => none

/-- Reads the members of a dictionary up to and with its closing brace. -/
def readMembers? (nonFinite : Bool) :
    (fuel : Nat) → List Char → Option (List (Scalar × Value) × List Char)
  | 0, _ => none
  | fuel + 1, cs =>
    match cs with
    | '"' :: rest => do
      let (key, rest) ← readString? (rest.length + 1) rest
      match skipSpace rest with
      | ':' :: rest =>
        let (item, rest) ← readValue? nonFinite fuel (skipSpace rest)
        match skipSpace rest with
        | '}' :: rest => return ([(.text (String.ofList key), item)], rest)
        | ',' :: rest =>
          let (members, rest) ← readMembers? nonFinite fuel (skipSpace rest)
          return ((.text (String.ofList key), item) :: members, rest)
        | _ => none
      | _ => none
    | _ => none

end

/-- Reads a whole text; `nonFinite` lets NaN and infinities in. -/
def read? (nonFinite : Bool) (s : String) : Option Value :=
  let cs := skipSpace s.toList
  match readValue? nonFinite (cs.length + 1) cs with
  | some (v, rest) => if (skipSpace rest).isEmpty then some v else none
  | none => none

/-- The value of a JSON text without NaN and infinities. -/
def parse? (s : String) : Option Value :=
  read? false s

end Json

namespace Value

/-- A text that is JSON is replaced by its value; everything else is kept. -/
def decoded : Value → Value
  | .text s => (Json.parse? s).getD (.text s)
  | v => v

end Value

/-- The value of a JSON text, or the text itself. -/
def decodedText (s : String) : Value :=
  (Json.parse? s).getD (.text s)

end PipeScript

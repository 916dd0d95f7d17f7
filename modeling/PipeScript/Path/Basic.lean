import PipeScript.Fault
import PipeScript.Json.Reader
import PipeScript.Value.Coercion

/-!
# Index paths

A path is a list of tokens, each of them a value.  A token names a dictionary entry by its text.  It
names a list item in one of three ways: exactly, by plain decimal text (`exactIndex?`); for a read, by
its number cut to an integer and counted from the end when negative (`readIndex?`); for a write, by a
number that is a natural number (`writeIndex?`).  An index of too many digits, or an integer beyond the
doubles, is refused.
-/

namespace PipeScript

/-- The steps from a value to one of its parts. -/
abbrev Path := List Value

namespace Path

/-- The path that an index argument denotes: its items when it is a list or the JSON text of one,
else the index itself, decoded unless it is null. -/
def ofIndex : Value → Except Fault Path
  | .null => .error .indexMissing
  | .list items => .ok items
  | .text s =>
    match Json.parse? s with
    | none => .ok [.text s]
    | some .null => .ok [.text s]
    | some (.list items) => .ok items
    | some v => .ok [v]
  | v => .ok [v]

/-- Whether a token has a number. -/
def isNumeric (token : Value) : Bool :=
  !token.asNumber.isNaN

/-- The digits of plain decimal text without leading zeros; one line end may follow. -/
def plainDigits? (cs : List Char) : Option (List Char) :=
  let digits := if cs.getLast? = some '\n' then cs.dropLast else cs
  if digits.isEmpty || !digits.all Text.isAsciiDigit then none
  else if digits.head? = some '0' && digits.length > 1 then none
  else some digits

/-- The item that a token names by its text alone. -/
def exactIndex? (token : Value) : Except Fault (Option Nat) :=
  match plainDigits? token.asText.toList with
  | none => .ok none
  | some digits =>
    if digits.length > integerDigitLimit then .error (.digitLimit (some digits.length))
    else .ok (some (digitsValue digits))

/-- The number of a token that names an item; an integer beyond the doubles is refused. -/
def itemNumber (token : Value) : Except Fault Number :=
  if token.asNumber.toBinary64?.isSome then .ok token.asNumber else .error .doubleOverflow

/-- How far into a list a read goes for a number: infinitely far when there is none. -/
def readOffset? : Number → Option Int
  | .float .nan => some 0
  | .float (.infinite negative) => if negative then some 0 else none
  | n => n.truncate?

/-- The item that a token names in a read from a list of a length. -/
def readIndex? (length : Nat) (token : Value) : Except Fault (Option Nat) := do
  let n ← itemNumber token
  return (readOffset? n).bind fun offset =>
    let index := if offset < 0 then ((length : Int) + offset).toNat else offset.toNat
    if index < length then some index else none

/-- The item that a token names in a write. -/
def writeIndex? (token : Value) : Except Fault (Option Nat) := do
  let n ← itemNumber token
  return n.whole?.bind fun i => if i < 0 then none else some i.toNat

end Path

namespace Value

/-- What a value is called; nulls go by the name given. -/
def kindName (nullName : String) : Value → String
  | .null => nullName
  | .bool _ => "bool"
  | .int _ => "int"
  | .number (.float _) => "float"
  | .text _ => "str"
  | .scalar (.moment m) => m.kind
  | .list _ => "list"
  | .dict _ => "dict"

end Value

end PipeScript

import PipeScript.Number.Basic
import PipeScript.Text.Blank
import PipeScript.Text.Class

/-!
# Reading numbers

Number text as values are coerced: decimal notation with an optional point and exponent, `Infinity`
with an optional sign, and the radix forms `0x`, `0o`, `0b`.  Blanks around it are ignored, blank text
is zero, and everything else is NaN.  A decimal is rounded to a double first and becomes an integer
when that double is whole.
-/

namespace PipeScript

open Text

/-- The value of a run of decimal digits. -/
def digitsValue (digits : List Char) : Nat :=
  digits.foldl (fun n c => 10 * n + digitValue c) 0

/-- The value of a run of digits of a base, if all of them are digits of that base. -/
def radixValue? (base : Nat) (digits : List Char) : Option Nat :=
  digits.foldlM (fun n c =>
    match hexValue? c with
    | some d => if d < base then some (base * n + d) else none
    | none => none) 0

/-- The sign in front of a number and what follows it. -/
def splitSign : List Char → Bool × List Char
  | '-' :: rest => (true, rest)
  | '+' :: rest => (false, rest)
  | cs => (false, cs)

/-- A number in decimal notation, as written. -/
structure Numeral where
  negative : Bool
  whole : List Char
  fraction : List Char
  exponent : Int

namespace Numeral

/-- The double nearest to a numeral. -/
def toBinary64 (n : Numeral) : Binary64 :=
  .ofDecimal n.negative (digitsValue (n.whole ++ n.fraction)) (n.exponent - n.fraction.length)

/-- Reads the exponent that ends a numeral: none, or a mark, a sign and digits. -/
def readExponent? : List Char → Option Int
  | [] => some 0
  | mark :: rest =>
    if mark == 'e' || mark == 'E' then
      let (negative, digits) := splitSign rest
      if !digits.isEmpty && digits.all isAsciiDigit then
        some (if negative then -(digitsValue digits : Int) else digitsValue digits)
      else none
    else none

/-- Reads a whole text as a numeral: digits with an optional point among or around them. -/
def read? (cs : List Char) : Option Numeral := do
  let (negative, body) := splitSign cs
  let whole := body.takeWhile isAsciiDigit
  match body.dropWhile isAsciiDigit with
  | '.' :: rest =>
    let fraction := rest.takeWhile isAsciiDigit
    if whole.isEmpty && fraction.isEmpty then none
    else return ⟨negative, whole, fraction, ← readExponent? (rest.dropWhile isAsciiDigit)⟩
  | rest => if whole.isEmpty then none else return ⟨negative, whole, [], ← readExponent? rest⟩

end Numeral

namespace Number

/-- A double as a number: an integer when it is whole. -/
def ofBinary64 (x : Binary64) : Number :=
  match (Number.float x).whole? with
  | some i => .int i
  | none => .float x

/-- The base that a letter after a leading zero announces. -/
def radixOf? (mark : Char) : Option Nat :=
  if mark == 'x' || mark == 'X' then some 16
  else if mark == 'o' || mark == 'O' then some 8
  else if mark == 'b' || mark == 'B' then some 2
  else none

/-- Reads `0x`, `0o` and `0b` numbers. -/
def readRadix? : List Char → Option Number
  | '0' :: mark :: digits => do
    let base ← radixOf? mark
    if digits.isEmpty then none else return .int (← radixValue? base digits)
  | _ => none

/-- Reads an infinity with an optional sign. -/
def readInfinity? (cs : List Char) : Option Number :=
  let (negative, body) := splitSign cs
  if body = "Infinity".toList then some (.float (.infinite negative)) else none

/-- The number that a text without surrounding blanks denotes. -/
def ofChars (cs : List Char) : Number :=
  if cs.isEmpty then .int 0
  else
    ((readInfinity? cs).or ((readRadix? cs).or
      ((Numeral.read? cs).map fun n => ofBinary64 n.toBinary64))).getD nan

/-- The number that a text denotes. -/
def ofText (s : String) : Number :=
  ofChars (stripChars s.toList)

end Number

end PipeScript

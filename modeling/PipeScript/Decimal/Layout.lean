import PipeScript.Decimal.Shortest

/-!
# Number layouts

A layout writes the shortest digits that read back as the number.  The *host* layout is the one of
values on the pipe: positional from `10^-6` up to `10^21`, where whole numbers are written with all
their digits instead.  The *literal* layout is the one of values in messages: positional from `10^-4`
up to `10^16`, always with a point or an exponent.
-/

namespace PipeScript

namespace Decimal

/-- The exponent of the first digit. -/
def leadingExponent (d : Decimal) : Int :=
  d.exponent + (digitChars d.coefficient).length - 1

/-- Positional notation without an exponent; a whole number ends in `wholeTail`. -/
def positional (wholeTail : List Char) (d : Decimal) : List Char :=
  let digits := digitChars d.coefficient
  if 0 ≤ d.exponent then digits ++ List.replicate d.exponent.toNat '0' ++ wholeTail
  else
    let places := (-d.exponent).toNat
    if places < digits.length then
      digits.take (digits.length - places) ++ '.' :: digits.drop (digits.length - places)
    else '0' :: '.' :: List.replicate (places - digits.length) '0' ++ digits

/-- One digit before the point, and an exponent with a sign and at least `minDigits` digits. -/
def scientific (minDigits : Nat) (d : Decimal) : List Char :=
  let fraction := (digitChars d.coefficient).drop 1
  let power := d.leadingExponent
  let powerDigits := digitChars power.natAbs
  (digitChars d.coefficient).take 1 ++ (if fraction.isEmpty then [] else '.' :: fraction) ++
    'e' :: (if power < 0 then '-' else '+') ::
    (List.replicate (minDigits - powerDigits.length) '0' ++ powerDigits)

end Decimal

/-- How doubles are spelled out. -/
structure NumberLayout where
  /-- Positional notation is used from this exponent of the first digit … -/
  positionalFrom : Int
  /-- … and below this one. -/
  positionalBelow : Int
  /-- The least number of digits of an exponent. -/
  exponentDigits : Nat
  /-- What ends a positional whole number. -/
  wholeTail : String
  /-- Whole numbers in positional range are written with all their digits, zero without a sign. -/
  exactWhole : Bool
  nanText : String
  infinityText : String

namespace NumberLayout

/-- Numbers on the pipe. -/
def host : NumberLayout := ⟨-6, 21, 1, "", true, "NaN", "Infinity"⟩

/-- Numbers in messages. -/
def literal : NumberLayout := ⟨-4, 16, 2, ".0", false, "nan", "inf"⟩

/-- The digits of a positive finite double. -/
def digits (layout : NumberLayout) (d : Decimal) : List Char :=
  if layout.positionalFrom ≤ d.leadingExponent ∧ d.leadingExponent < layout.positionalBelow then
    d.positional layout.wholeTail.toList
  else d.scientific layout.exponentDigits

/-- The text of a double. -/
def render (layout : NumberLayout) (x : Binary64) : String :=
  match x with
  | .nan => layout.nanText
  | .infinite negative => if negative then "-" ++ layout.infinityText else layout.infinityText
  | .finite negative mantissa exponent _ =>
    let sign := if negative then "-" else ""
    if mantissa = 0 then
      if layout.exactWhole then "0" else sign ++ "0" ++ layout.wholeTail
    else
      let d := Decimal.shortest mantissa exponent
      match x.truncate? with
      | some whole =>
        if layout.exactWhole && x.isInteger && whole.natAbs < tenTo 21 then
          sign ++ String.ofList (Decimal.digitChars whole.natAbs)
        else sign ++ String.ofList (layout.digits d)
      | none => sign ++ String.ofList (layout.digits d)

end NumberLayout

end PipeScript

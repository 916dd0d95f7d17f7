import PipeScript.Binary64

/-!
# The shortest decimal of a double

Among the decimals that read back as a given double, the one with the fewest digits is written, and
of several such the nearest.  The decimals that read back fill the interval halfway to the two
neighbouring doubles, ends included when the mantissa is even.  For 1, 2, … 17 digits the two decimals
of that many digits around the double are tried in exact arithmetic.
-/

namespace PipeScript

/-- A positive decimal `coefficient · 10^exponent`. -/
structure Decimal where
  coefficient : Nat
  exponent : Int
  deriving DecidableEq, Repr

namespace Decimal

/-- The decimal digits of a number. -/
def digitChars (n : Nat) : List Char :=
  Nat.toDigits 10 n

/-- Drops the zeros at the end of a coefficient; `fuel` bounds their number. -/
def trimZeros : (fuel : Nat) → Decimal → Decimal
  | 0, d => d
  | fuel + 1, d =>
    if d.coefficient % 10 = 0 then trimZeros fuel ⟨d.coefficient / 10, d.exponent + 1⟩ else d

/-- An interval of the rationals around a value; all four numbers have one denominator. -/
structure Neighbourhood where
  low : Nat
  value : Nat
  high : Nat
  denominator : Nat
  closed : Bool

namespace Neighbourhood

/-- The interval of the numbers that round to `mantissa · 2^exponent`. -/
def ofParts (mantissa : Nat) (exponent : Int) : Neighbourhood :=
  let below := if mantissa = twoTo 52 ∧ exponent > -1074 then 1 else 2
  let unit := if exponent ≥ 2 then twoTo (exponent - 2).toNat else 1
  let denominator := if exponent ≥ 2 then 1 else twoTo (2 - exponent).toNat
  ⟨(4 * mantissa - below) * unit, 4 * mantissa * unit, (4 * mantissa + 2) * unit, denominator,
    mantissa % 2 == 0⟩

/-- The interval in units of `10^power`. -/
def inUnits (n : Neighbourhood) (power : Int) : Neighbourhood :=
  if 0 ≤ power then { n with denominator := n.denominator * tenTo power.toNat }
  else
    let factor := tenTo (-power).toNat
    { n with low := n.low * factor, value := n.value * factor, high := n.high * factor }

/-- Whether a whole number of units lies in the interval. -/
def holds (n : Neighbourhood) (units : Nat) : Bool :=
  let x := units * n.denominator
  if n.closed then n.low ≤ x && x ≤ n.high else n.low < x && x < n.high

/-- The whole number of units in the interval that is nearest to the value; of two equally near
ones the even one. -/
def nearest? (n : Neighbourhood) : Option Nat :=
  let below := n.value / n.denominator
  let above := below + 1
  let preferred := roundQuotient n.value n.denominator
  if n.holds preferred then some preferred
  else if n.holds below then some below
  else if n.holds above then some above
  else none

/-- The exponent of the first digit: the greatest `k` with `10^k` at most the value. -/
def leadingPower (n : Neighbourhood) : Int :=
  let size : Int := (n.value.log2 : Int) - n.denominator.log2
  let guess := (size * 30103).fdiv 100000
  let atLeast (power : Int) : Bool :=
    let scaled := n.inUnits power
    scaled.denominator ≤ scaled.value
  if atLeast (guess + 1) then guess + 1
  else if atLeast guess then guess
  else guess - 1

/-- Tries one more digit at a time, from the unit `10^power` down. -/
def searchFrom (n : Neighbourhood) : (fuel : Nat) → (power : Int) → Decimal
  | 0, power => ⟨roundQuotient (n.inUnits power).value (n.inUnits power).denominator, power⟩
  | fuel + 1, power =>
    match (n.inUnits power).nearest? with
    | some units => ⟨units, power⟩
    | none => searchFrom n fuel (power - 1)

end Neighbourhood

/-- The shortest decimal that reads back as `mantissa · 2^exponent`. -/
def shortest (mantissa : Nat) (exponent : Int) : Decimal :=
  let n := Neighbourhood.ofParts mantissa exponent
  trimZeros 20 (n.searchFrom 17 n.leadingPower)

end Decimal

end PipeScript

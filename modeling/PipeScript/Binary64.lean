import PipeScript.Power

/-!
# Double precision numbers

A finite double is `±mantissa · 2^exponent` in its one canonical form, so two doubles are the same
number with the same sign exactly when they are equal as data.  Every operation computes the exact
result as a fraction of natural numbers and rounds it once, to the nearest double and from halfway to
the even mantissa (`ofRatio`).
-/

namespace PipeScript

/-- The canonical pairs: a full mantissa of 53 bits, or the least exponent. -/
def Binary64.Canonical (mantissa : Nat) (exponent : Int) : Prop :=
  mantissa < twoTo 53 ∧ -1074 ≤ exponent ∧ exponent ≤ 971 ∧ (twoTo 52 ≤ mantissa ∨ exponent = -1074)

instance (mantissa : Nat) (exponent : Int) : Decidable (Binary64.Canonical mantissa exponent) := by
  unfold Binary64.Canonical; infer_instance

/-- A double precision number. -/
inductive Binary64 where
  | nan
  | infinite (negative : Bool)
  | finite (negative : Bool) (mantissa : Nat) (exponent : Int)
      (canonical : Binary64.Canonical mantissa exponent)
  deriving DecidableEq

/-- An exact number with a power of two as its denominator: `numerator / 2^shift`. -/
structure Dyadic where
  numerator : Int
  shift : Nat
  deriving DecidableEq

namespace Dyadic

def ofInt (i : Int) : Dyadic := ⟨i, 0⟩

/-- The order of the numbers, whatever their denominators. -/
def compare (a b : Dyadic) : Ordering :=
  Ord.compare (a.numerator * twoTo b.shift) (b.numerator * twoTo a.shift)

end Dyadic

/-- The nearest natural number to a fraction; a half goes to the even neighbour. -/
def roundQuotient (num den : Nat) : Nat :=
  let quotient := num / den
  let twice := 2 * (num % den)
  if twice < den then quotient
  else if den < twice then quotient + 1
  else quotient + quotient % 2

/-- The fraction `num / den`, divided by a power of two. -/
def divideByPower (num den : Nat) (exponent : Int) : Nat × Nat :=
  if 0 ≤ exponent then (num, den * twoTo exponent.toNat) else (num * twoTo (-exponent).toNat, den)

namespace Binary64

def zero (negative : Bool) : Binary64 :=
  .finite negative 0 (-1074) (by decide)

/-- A mantissa and an exponent as a double; what lies beyond the greatest double is infinite. -/
def ofParts (negative : Bool) (mantissa : Nat) (exponent : Int) : Binary64 :=
  if h : Canonical mantissa exponent then .finite negative mantissa exponent h
  else .infinite negative

/-- The double nearest to a fraction. -/
def ofRatio (negative : Bool) (num den : Nat) : Binary64 :=
  if num = 0 then zero negative
  else
    let guess : Int := max ((num.log2 : Int) - den.log2 - 53) (-1074)
    let (a, b) := divideByPower num den guess
    let exponent := if a / b < twoTo 53 then guess else guess + 1
    let (a, b) := divideByPower num den exponent
    let mantissa := roundQuotient a b
    if mantissa < twoTo 53 then ofParts negative mantissa exponent
    else ofParts negative (twoTo 52) (exponent + 1)

/-- The double nearest to `digits · 10^exponent`. -/
def ofDecimal (negative : Bool) (digits : Nat) (exponent : Int) : Binary64 :=
  let size : Int := exponent + digits.log2 / 3
  if digits = 0 then zero negative
  else if exponent > 400 then .infinite negative
  else if size < -800 then zero negative
  else if 0 ≤ exponent then ofRatio negative (digits * tenTo exponent.toNat) 1
  else ofRatio negative digits (tenTo (-exponent).toNat)

/-- The double nearest to an integer. -/
def ofInt (i : Int) : Binary64 :=
  ofRatio (i < 0) i.natAbs 1

/-- A magnitude with a sign. -/
def signed (negative : Bool) (magnitude : Nat) : Int :=
  if negative then -(magnitude : Int) else magnitude

/-- The exact value of a finite double. -/
def dyadic? : Binary64 → Option Dyadic
  | .finite negative mantissa exponent _ =>
    some (if 0 ≤ exponent then ⟨signed negative mantissa * twoTo exponent.toNat, 0⟩
      else ⟨signed negative mantissa, (-exponent).toNat⟩)
  | _ => none

def isNaN : Binary64 → Bool
  | .nan => true
  | _ => false

def isFinite : Binary64 → Bool
  | .finite .. => true
  | _ => false

def isZero : Binary64 → Bool
  | .finite _ mantissa _ _ => mantissa == 0
  | _ => false

def isNegative : Binary64 → Bool
  | .nan => false
  | .infinite negative => negative
  | .finite negative .. => negative

def neg : Binary64 → Binary64
  | .nan => .nan
  | .infinite negative => .infinite !negative
  | .finite negative mantissa exponent h => .finite (!negative) mantissa exponent h

/-- The integer that remains when the fraction is cut off; infinities and NaN have none. -/
def truncate? (x : Binary64) : Option Int :=
  x.dyadic?.map fun d => d.numerator.tdiv (twoTo d.shift)

/-- Whether a double is a whole number. -/
def isInteger (x : Binary64) : Bool :=
  match x.dyadic? with
  | some d => d.numerator % twoTo d.shift == 0
  | none => false

/-- The sum, rounded once.  A sum that vanishes is positive unless both terms are negative. -/
def add (x y : Binary64) : Binary64 :=
  match x, y with
  | .nan, _ => .nan
  | _, .nan => .nan
  | .infinite a, .infinite b => if a == b then .infinite a else .nan
  | .infinite a, .finite .. => .infinite a
  | .finite .., .infinite b => .infinite b
  | .finite s m e _, .finite t n f _ =>
    let sum := signed s m * twoTo (e + 1074).toNat + signed t n * twoTo (f + 1074).toNat
    if sum = 0 then zero (s && t) else ofRatio (sum < 0) sum.natAbs (twoTo 1074)

/-- The product, rounded once. -/
def mul (x y : Binary64) : Binary64 :=
  match x, y with
  | .nan, _ => .nan
  | _, .nan => .nan
  | .infinite a, y => if y.isZero then .nan else .infinite (a != y.isNegative)
  | x, .infinite b => if x.isZero then .nan else .infinite (x.isNegative != b)
  | .finite s m e _, .finite t n f _ =>
    ofRatio (s != t) (m * n * twoTo (e + f + 2148).toNat) (twoTo 2148)

end Binary64

end PipeScript

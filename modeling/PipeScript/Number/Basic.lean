import PipeScript.Decimal.Layout

/-!
# Numbers

A number is an integer of any size or a double.  The two kinds stay apart, but they compare by their
exact values: every number that is not NaN has a place on the extended line, and order and equality
are those of the places.
-/

namespace PipeScript

inductive Number where
  | int (i : Int)
  | float (x : Binary64)
  deriving DecidableEq

/-- A point of the line of numbers with both infinities. -/
inductive Place where
  | bottom
  | at (value : Dyadic)
  | top

namespace Place

def compare : Place → Place → Ordering
  | .bottom, .bottom => .eq
  | .bottom, _ => .lt
  | _, .bottom => .gt
  | .top, .top => .eq
  | .top, _ => .gt
  | _, .top => .lt
  | .at a, .at b => a.compare b

end Place

namespace Number

def nan : Number := .float .nan

def isNaN : Number → Bool
  | .int _ => false
  | .float x => x.isNaN

/-- Where a number lies; NaN lies nowhere. -/
def place? : Number → Option Place
  | .int i => some (.at (.ofInt i))
  | .float .nan => none
  | .float (.infinite negative) => some (if negative then .bottom else .top)
  | .float x => x.dyadic?.map .at

/-- The order of two numbers; with NaN there is none. -/
def compare? (a b : Number) : Option Ordering :=
  match a.place?, b.place? with
  | some p, some q => some (p.compare q)
  | _, _ => none

def eq (a b : Number) : Bool := a.compare? b == some .eq
def lt (a b : Number) : Bool := a.compare? b == some .lt
def gt (a b : Number) : Bool := a.compare? b == some .gt
def le (a b : Number) : Bool := a.lt b || a.eq b
def ge (a b : Number) : Bool := a.gt b || a.eq b

def isZero : Number → Bool
  | .int i => i == 0
  | .float x => x.isZero

/-- The integer that remains when the fraction is cut off; infinities and NaN have none. -/
def truncate? : Number → Option Int
  | .int i => some i
  | .float x => x.truncate?

/-- The value of a number that is whole. -/
def whole? : Number → Option Int
  | .int i => some i
  | .float x => if x.isInteger then x.truncate? else none

/-- The double of a number; an integer beyond the doubles has none. -/
def toBinary64? : Number → Option Binary64
  | .int i =>
    match Binary64.ofInt i with
    | .infinite _ => none
    | x => some x
  | .float x => some x

/-- The sum.  Two integers are added exactly; an integer beyond the doubles cannot be added to a
double. -/
def add? : Number → Number → Option Number
  | .int a, .int b => some (.int (a + b))
  | a, b => do return .float ((← a.toBinary64?).add (← b.toBinary64?))

/-- The decimal digits of an integer. -/
def intChars (i : Int) : List Char :=
  if i < 0 then '-' :: Decimal.digitChars i.natAbs else Decimal.digitChars i.natAbs

/-- The text of a number in a layout. -/
def render (layout : NumberLayout) : Number → String
  | .int i => String.ofList (intChars i)
  | .float x => layout.render x

/-- The text of a number on the pipe. -/
def text (n : Number) : String :=
  n.render .host

end Number

/-- The greatest number of digits with which an integer is read or written. -/
def integerDigitLimit : Nat := 4300

/-- Whether an integer has more digits than can be read or written. -/
def exceedsDigitLimit (i : Int) : Bool :=
  tenTo integerDigitLimit ≤ i.natAbs

end PipeScript

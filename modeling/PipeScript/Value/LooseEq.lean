import PipeScript.Value.Coercion

/-!
# Loose equality

Values of different kinds are equal when they agree after coercion: booleans count as numbers, a
container beside a scalar as its text, and a text beside a number as a number.  Null equals null only.
Two containers are equal when they are one and the same, which the caller says.
-/

namespace PipeScript

namespace Scalar

/-- Loose equality of scalars other than booleans and null. -/
def looseEq : Scalar → Scalar → Bool
  | .number m, .number n => m.eq n
  | .number m, .text t => m.eq (.ofText t)
  | .text s, .number n => (Number.ofText s).eq n
  | .text s, .text t => s == t
  | _, _ => false

end Scalar

namespace Value

/-- The scalar that stands for a value in a comparison with a scalar. -/
def comparand : Value → Scalar
  | .bool b => .number (.int (if b then 1 else 0))
  | .scalar s => s
  | container => .text container.asText

/-- Loose equality; `same` tells whether two containers are one and the same. -/
def looseEq (same : Bool) (a b : Value) : Bool :=
  if a.isNull || b.isNull then a.isNull && b.isNull
  else if a.isContainer && b.isContainer then same
  else a.comparand.looseEq b.comparand

end Value

end PipeScript

import PipeScript.Value.Basic

/-!
# The digit limit

An integer of too many digits can be held and compared but not written, so a value with such an
integer in it has no text.  The text of a dictionary that is joined into other text says nothing about
its entries (`Value.hasLongText`).
-/

namespace PipeScript

/-- Whether a scalar is an integer of too many digits. -/
def Scalar.isLongInteger : Scalar → Bool
  | .number (.int i) => exceedsDigitLimit i
  | _ => false

namespace Value

mutual

/-- Whether a value holds an integer of too many digits. -/
def hasLongInteger : Value → Bool
  | .scalar s => s.isLongInteger
  | .list items => anyLongInteger items
  | .dict entries => anyLongEntry entries

def anyLongInteger : List Value → Bool
  | [] => false
  | item :: rest => hasLongInteger item || anyLongInteger rest

def anyLongEntry : List (Scalar × Value) → Bool
  | [] => false
  | (key, item) :: rest => key.isLongInteger || hasLongInteger item || anyLongEntry rest

end

mutual

/-- Whether the text that a value counts as would have an integer of too many digits in it. -/
def hasLongText : Value → Bool
  | .scalar s => s.isLongInteger
  | .list items => anyLongText items
  | .dict _ => false

def anyLongText : List Value → Bool
  | [] => false
  | item :: rest => hasLongText item || anyLongText rest

end

end Value

end PipeScript

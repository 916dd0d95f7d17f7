import PipeScript.Number.Reader
import PipeScript.Text.Case
import PipeScript.Value.Basic

/-!
# Coercions

Commands exchange text, so a value is asked for its text, its number or its truth wherever it
appears.  The text of a list joins the texts of its items with commas, null items left empty; the
number of a list is that of its text; every list and dictionary is true.
-/

namespace PipeScript

namespace Scalar

/-- The text of a scalar. -/
def asText : Scalar → String
  | .null => "null"
  | .bool b => if b then "true" else "false"
  | .number n => n.text
  | .text s => s
  | .moment m => m.text

/-- The number of a scalar. -/
def asNumber : Scalar → Number
  | .null => .int 0
  | .bool b => .int (if b then 1 else 0)
  | .number n => n
  | .text s => .ofText s
  | .moment _ => .nan

def isTruthy : Scalar → Bool
  | .null => false
  | .bool b => b
  | .number n => !(n.isZero || n.isNaN)
  | .text s => s != ""
  | .moment _ => true

end Scalar

namespace Value

mutual

/-- The text of a value. -/
def asText : Value → String
  | .scalar s => s.asText
  | .list items => String.intercalate "," (itemTexts items)
  | .dict _ => "[object Object]"

/-- The texts of the items of a list; a null item has none. -/
def itemTexts : List Value → List String
  | [] => []
  | item :: rest => (if item.isNull then "" else asText item) :: itemTexts rest

end

/-- The number of a value; NaN when it has none. -/
def asNumber : Value → Number
  | .scalar s => s.asNumber
  | .list items => .ofText (asText (.list items))
  | .dict _ => .nan

def isTruthy : Value → Bool
  | .scalar s => s.isTruthy
  | _ => true

end Value

/-- Whether a text says yes: `on` or `true` in any case, blanks aside. -/
def saysYes (s : String) : Bool :=
  let word := Text.lower (Text.strip s)
  word == "on" || word == "true"

/-- Whether a value says yes; beyond booleans and texts nothing does. -/
def Value.saysYes : Value → Bool
  | .bool b => b
  | .text s => PipeScript.saysYes s
  | _ => false

end PipeScript

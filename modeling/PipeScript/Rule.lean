import PipeScript.Fault
import PipeScript.Text.Search
import PipeScript.Value.Coercion
import PipeScript.Value.Limit

/-!
# Comparison rules

A rule compares two operands.  When the left operand is a text and the right one no number, the rules
for texts apply, regardless of case; when the left operand is a number, the rules for numbers apply.
Any other pair satisfies no rule.
-/

namespace PipeScript

/-- Rules for texts. -/
inductive TextRule where
  | includes
  | excludes
  | equal
  | unequal
  deriving DecidableEq

/-- Rules for numbers. -/
inductive NumberRule where
  | isFalse
  | greater
  | atLeast
  | less
  | atMost
  | equal
  | unequal
  deriving DecidableEq

namespace TextRule

def ofName? : String → Option TextRule
  | "in" => some .includes
  | "nin" => some .excludes
  | "eq" => some .equal
  | "neq" => some .unequal
  | _ => none

/-- Whether two lower case texts satisfy a rule. -/
def holds : TextRule → String → String → Bool
  | .includes, a, b => Text.occursIn b a
  | .excludes, a, b => !Text.occursIn b a
  | .equal, a, b => a == b
  | .unequal, a, b => a != b

end TextRule

namespace NumberRule

def ofName? : String → Option NumberRule
  | "not" => some .isFalse
  | "gt" => some .greater
  | "gte" => some .atLeast
  | "lt" => some .less
  | "lte" => some .atMost
  | "eq" => some .equal
  | "neq" => some .unequal
  | _ => none

/-- Whether two numbers satisfy a rule. -/
def holds : NumberRule → Number → Number → Bool
  | .isFalse, a, _ => a.isZero || a.isNaN
  | .greater, a, b => a.gt b
  | .atLeast, a, b => a.ge b
  | .less, a, b => a.lt b
  | .atMost, a, b => a.le b
  | .equal, a, b => a.eq b
  | .unequal, a, b => !a.eq b

end NumberRule

namespace Rule

/-- What the rules mean, for the help texts. -/
def help : String :=
  "gt => a > b, gte => a >= b, lt => a < b, lte => a <= b, eq => a == b, " ++
    "neq => a != b, not => !a, in (strings) => a includes b, nin (strings) => a not includes b"

/-- Compares a text with a value that is no number. -/
def evaluateText (rule a : String) (b : Value) : Except Fault Bool :=
  match TextRule.ofName? rule with
  | none => .error (.unknownTextRule rule)
  | some r =>
    if b.hasLongText then .error (.digitLimit none)
    else .ok (r.holds (Text.lower a) (Text.lower b.asText))

/-- Compares a number with the number of a value. -/
def evaluateNumber (rule : String) (a : Number) (b : Value) : Except Fault Bool :=
  match NumberRule.ofName? rule with
  | none => .error (.unknownNumberRule rule)
  | some r =>
    if b.isContainer && b.hasLongText then .error (.digitLimit none) else .ok (r.holds a b.asNumber)

/-- Whether two operands satisfy the rule of a name. -/
def evaluate (rule : String) (a b : Value) : Except Fault Bool :=
  if rule = "" then .error .ruleMissing
  else
    match a, b with
    | .text _, .number _ => .ok false
    | .text s, b => evaluateText rule s b
    | .number n, b => evaluateNumber rule n b
    | _, _ => .ok false

end Rule

end PipeScript

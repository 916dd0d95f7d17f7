import PipeScript.Json.Printer

/-!
# Literals

The spelling of a value inside a message, and the test for a value being given at all: neither null,
nor false, nor zero, nor empty.
-/

namespace PipeScript

/-- A scalar as a literal. -/
def Scalar.literal : Scalar → String
  | .text s => Text.quoted s
  | s => s.keyText

namespace Value

mutual

/-- A value as a literal. -/
def literal : Value → String
  | .scalar s => s.literal
  | .list items => "[" ++ String.intercalate ", " (itemLiterals items) ++ "]"
  | .dict entries => "\x7b" ++ String.intercalate ", " (entryLiterals entries) ++ "\x7d"

def itemLiterals : List Value → List String
  | [] => []
  | item :: rest => literal item :: itemLiterals rest

def entryLiterals : List (Scalar × Value) → List String
  | [] => []
  | (key, item) :: rest => (key.literal ++ ": " ++ literal item) :: entryLiterals rest

end

/-- A value as message text: a text is itself, everything else a literal. -/
def messageText : Value → String
  | .text s => s
  | v => v.literal

/-- Whether a value is neither null, nor false, nor zero, nor empty. -/
def isGiven : Value → Bool
  | .null => false
  | .bool b => b
  | .number n => !n.isZero
  | .text s => s != ""
  | .scalar (.moment _) => true
  | .list items => !items.isEmpty
  | .dict entries => !entries.isEmpty

end Value

end PipeScript

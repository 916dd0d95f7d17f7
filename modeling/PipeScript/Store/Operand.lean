import PipeScript.Store.Basic
import PipeScript.Value.Literal

/-!
# Operands

Where a command finds its data.  A comparison operand is a number, the name of a variable, or itself.
Structured data comes from the first of several sources that decodes to something true: a local
variable, a global variable, a literal.  A source that is not named is passed over.
-/

namespace PipeScript

namespace Shared

/-- What a source offers as data: a text is decoded, and text that is not JSON offers nothing. -/
def structured : Shared → Shared
  | .plain (.text s) => .plain ((Json.parse? s).getD .null)
  | item => item

def isTruthy (item : Shared) : Bool :=
  item.toValue.isTruthy

def isNull : Shared → Bool
  | .plain v => v.isNull
  | _ => false

end Shared

/-- The first non-empty argument among several names. -/
def firstArgument? (args : List (String × String)) (names : List String) : Option String :=
  names.findSome? fun name => (args.lookup name).filter (· ≠ "")

namespace Store

/-- The value of a comparison operand. -/
def operand (store : Store) : Option String → Value
  | none => .text ""
  | some word =>
    let n := Number.ofText word
    if !n.isNaN then .number n
    else
      let stored (item : Shared) : Value := if item.isNull then .text "" else item.toValue
      if store.hasLocal word then stored (store.readLocal word)
      else if store.hasGlobal word then stored (store.readGlobal word)
      else .text word

/-- What a named variable holds; nothing when the name is missing or empty. -/
def named (read : String → Shared) : Option String → Option Shared
  | some name => if name = "" then none else some (read name)
  | none => none

/-- The first source that is true, in order; the last one that is there when none is. -/
def firstTruthy (sources : List (Option Shared)) : Shared :=
  sources.foldl (fun found source =>
    match source with
    | some item => if found.isTruthy then found else item
    | none => found) (.plain .null)

/-- A literal as a source: there only when it is given. -/
def literalSource (literal : Value) : Option Shared :=
  if literal.isGiven then some (.plain literal) else none

/-- Structured data of a local variable, a global variable or a literal. -/
def structured (store : Store) (local? global? : Option String) (literal : Value) : Shared :=
  firstTruthy ([named store.readLocal local?, named store.readGlobal global?,
    literalSource literal].map (·.map Shared.structured))

/-- Structured data that a loop walks: the literal comes first. -/
def iterated (store : Store) (literal : Value) (local? global? : Option String) : Shared :=
  firstTruthy ([literalSource literal, named store.readLocal local?,
    named store.readGlobal global?].map (·.map Shared.structured))

/-- The first source that is not null, undecoded. -/
def firstValue (store : Store) (local? global? : Option String) (literal : Value) : Shared :=
  [named store.readLocal local?, named store.readGlobal global?, literalSource literal].foldl
    (fun found source =>
      match source with
      | some item => if found.isNull then item else found
      | none => found) (.plain .null)

end Store

end PipeScript

import PipeScript.Text.Case
import PipeScript.Value.Coercion
import PipeScript.Json.Printer

/-!
# Templates

A template holds placeholders `{{name}}`, recognised regardless of case.  Filling in a name replaces
every occurrence of its placeholder, left to right, by a text that is taken literally; several names
are filled in one after the other.
-/

namespace PipeScript

namespace Template

/-- The placeholder of a name. -/
def placeholder (name : String) : List Char :=
  ['\x7b', '\x7b'] ++ name.toList ++ ['\x7d', '\x7d']

/-- Whether a text starts with a pattern, regardless of case. -/
def startsWith : (pattern : List Char) → List Char → Bool
  | [], _ => true
  | _ :: _, [] => false
  | p :: pattern, c :: rest => Text.sameLetter p c && startsWith pattern rest

/-- Replaces every occurrence of a pattern; while `skip` is positive the scan stands inside one. -/
def fillFrom (pattern text : List Char) : (skip : Nat) → List Char → List Char
  | _, [] => []
  | skip + 1, _ :: rest => fillFrom pattern text skip rest
  | 0, c :: rest =>
    if startsWith pattern (c :: rest) then text ++ fillFrom pattern text (pattern.length - 1) rest
    else c :: fillFrom pattern text 0 rest

/-- Fills in one name. -/
def fill (template name text : String) : String :=
  String.ofList (fillFrom (placeholder name) text.toList 0 template.toList)

/-- Fills in several names, one after the other. -/
def fillAll (template : String) (values : List (String × String)) : String :=
  values.foldl (fun template (name, text) => fill template name text) template

end Template

/-- The text of a value inside a command: null and containers as JSON. -/
def Value.placeholderText : Value → String
  | .null => "null"
  | .scalar s => s.asText
  | container => container.json

end PipeScript

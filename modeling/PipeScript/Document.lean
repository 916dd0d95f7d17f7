import PipeScript.Json.Reader
import PipeScript.Store.Shared
import PipeScript.Text.Case
import PipeScript.Text.Search

/-!
# Documents

A document is text in a data format.  The format is named, or told from the name of a file, or guessed
from the text.  Text that cannot be read in its format is taken as it is; text that announces JSON and
is none may still be YAML.

The reader of YAML comes from outside the language, so it is a parameter here (`Yaml.Loader`): it gives a
value, says that a text is no document, or passes a fault on.  Stacks are taken to be large enough for
any nesting of documents.
-/

namespace PipeScript

/-- A reader of YAML gives the value of a text and the number of the next container, or says why there
is none. -/
abbrev Yaml.Loader := String → Except Yaml.Failure (Shared × Nat)

inductive DocumentFormat where
  | json
  | yaml
  deriving DecidableEq

namespace DocumentFormat

/-- How a format is called. -/
def name : DocumentFormat → String
  | .json => "json"
  | .yaml => "yaml"

/-- The format that is called so. -/
def ofName? (name : String) : Option DocumentFormat :=
  if name = "json" then some .json else if name = "yaml" then some .yaml else none

/-- The format that the ending of a path tells, in letters of any case. -/
def ofPath? (path : String) : Option DocumentFormat :=
  let path := Text.lower path
  if Text.endsWith ".json" path then some .json
  else if Text.endsWith ".yaml" path || Text.endsWith ".yml" path then some .yaml
  else none

/-- The format that a text seems to have: JSON if it starts with a bracket; blank text has none. -/
def ofText? (text : String) : Option DocumentFormat :=
  match (Text.stripStart text).toList with
  | [] => none
  | c :: _ => if c = '\x7b' || c = '[' then some .json else some .yaml

/-- The format of a text when one is asked for by name.  Without a name it is guessed; a name of no
known format leaves the text without one. -/
def choose? (named : Option String) (text : String) : Option DocumentFormat :=
  match named with
  | none => ofText? text
  | some name => if name = "" then ofText? text else ofName? name

end DocumentFormat

namespace Document

/-- The text itself as a value. -/
def verbatim (text : String) : Shared × Nat := (.plain (.text text), 0)

section Read

variable (yaml : Yaml.Loader)

/-- The value of a text as YAML, or the text itself. -/
def readYaml (text : String) : Except Fault (Shared × Nat) :=
  match yaml text with
  | .ok result => .ok result
  | .error .malformed => .ok (verbatim text)
  | .error (.meaningless fault) => .error fault

/-- The value of a text in a format, and the number of the next container. -/
def readShared (format : Option DocumentFormat) (text : String) : Except Fault (Shared × Nat) :=
  match format with
  | none => .ok (verbatim text)
  | some .yaml => readYaml yaml text
  | some .json =>
    match Json.read? true text with
    | some v => .ok ((Shared.number v).run 0)
    | none => readYaml yaml text

/-- The value of a text in a format. -/
def load (format : Option DocumentFormat) (text : String) : Except Fault Value :=
  (readShared yaml format text).map fun (value, _) => value.toValue

end Read

end Document

end PipeScript

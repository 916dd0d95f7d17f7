import PipeScript.Fault
import PipeScript.Yaml.Cursor

/-!
# Document tokens

The parts that a document is made of.  Indentation shows as the tokens that open and close blocks.
-/

namespace PipeScript.Yaml

/-- A line that tells how to read the document below it. -/
inductive Directive where
  | version (major : Nat)
  /-- A short name for the beginning of tags. -/
  | shorthand (handle expansion : String)
  | reserved

/-- A tag as written: a short name with the rest, or a whole tag. -/
structure WrittenTag where
  handle : Option String
  suffix : String

inductive Token where
  | directive (d : Directive)
  | documentStart
  | documentEnd
  | streamEnd
  | blockList
  | blockDict
  | blockEnd
  | flowList
  | flowListEnd
  | flowDict
  | flowDictEnd
  | flowEntry
  | blockEntry
  | key
  | value
  | alias (name : String)
  | anchor (name : String)
  | tag (t : WrittenTag)
  /-- A text; a plain one may stand for something else. -/
  | scalar (text : List Char) (plain : Bool)
  /-- The place from which nothing can be read. -/
  | broken (failure : Failure)

end PipeScript.Yaml

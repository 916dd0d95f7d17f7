import PipeScript.Store.Seed
import PipeScript.Yaml.Content

/-!
# The reader in use

Documents are read with a reader of YAML that comes from outside the language.  This is how the program
runs with `Yaml.read`, a reader of YAML 1.1 that covers the documents in use.  What is said of documents
and sessions holds for every reader and rests on none of its details.

It has limits of its own.  A text is malformed to it if it has the tag of a set, of binary data or of a
list of pairs, or a container that contains itself, although there are readers that give these a
value.  An escape of a surrogate that stands alone becomes a replacement character.
-/

namespace PipeScript

/-- The value of a text in a format. -/
def Document.read (format : Option DocumentFormat) (text : String) : Except Fault Value :=
  load Yaml.read format text

/-- The store that a file seeds, by its name and its contents. -/
def Store.ofFile (name contents : String) : Except Fault Store :=
  load Yaml.read name contents

end PipeScript

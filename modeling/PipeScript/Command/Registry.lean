import PipeScript.Command.Builtin
import PipeScript.Pipeline.Call
import PipeScript.Text.Case

/-!
# The command registry

Commands are found under their name and their aliases, regardless of case, and listed in the order in
which they were registered.  Registering a name again moves it to the end of the list; an alias can
take a name away from another command, which stays listed.
-/

namespace PipeScript

/-- A command of the host: from the arguments, the value and the pipe to a result. -/
abbrev HostRun := Arguments → (value pipe : String) → Except Fault Value

/-- What a command does. -/
inductive Handler where
  | builtin (b : Builtin)
  | host (run : HostRun)

structure Command where
  name : String
  handler : Handler
  aliases : List String
  help : String
  synopsis : String
  /-- Whether the command is told the output of the stage before it. -/
  takesPipe : Bool

/-- The entry of a built-in command. -/
def Builtin.command (b : Builtin) : Command :=
  let d := b.describe
  ⟨d.name, .builtin b, d.aliases, d.help, d.synopsis, true⟩

structure Registry where
  /-- Commands under their lower case names and aliases. -/
  table : List (String × Command)
  /-- The commands in the order of their registration. -/
  listed : List Command

namespace Registry

def empty : Registry := ⟨[], []⟩

/-- The command of a name or an alias. -/
def get? (r : Registry) (name : String) : Option Command :=
  r.table.lookup (Text.lower name)

def contains (r : Registry) (name : String) : Bool :=
  (r.get? name).isSome

/-- Puts a command under a key in front of what the key had. -/
def enter (command : Command) (table : List (String × Command)) (key : String) :
    List (String × Command) :=
  (Text.lower key, command) :: table.filter fun (k, _) => k ≠ Text.lower key

def register (r : Registry) (command : Command) : Registry where
  table := (command.name :: command.aliases).foldl (enter command) r.table
  listed := (r.listed.filter fun c => Text.lower c.name ≠ Text.lower command.name) ++ [command]

/-- Registers the commands of a library; known names are left alone unless `replace` is set. -/
def bind (r : Registry) (library : List Command) (replace : Bool) : Registry :=
  library.foldl (fun r command =>
    if r.contains command.name && !replace then r else r.register command) r

/-- The names of the listed commands, in the order of their characters. -/
def names (r : Registry) : List String :=
  (r.listed.map (·.name)).mergeSort fun a b => decide (a ≤ b)

/-- A registry with the built-in commands where their names are free. -/
def withBuiltins (r : Registry) : Registry :=
  (r.bind (Builtin.expressions.map (·.command)) false).bind
    (Builtin.hostCommands.map (·.command)) false

/-- One line per listed command: its name, its synopsis and its help. -/
def listing (r : Registry) : String :=
  String.intercalate "\n" (r.listed.map fun c =>
    let head := if c.synopsis = "" then "/" ++ c.name else "/" ++ c.name ++ " " ++ c.synopsis
    if c.help = "" then head else head ++ " - " ++ c.help)

end Registry

end PipeScript

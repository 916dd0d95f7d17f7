import PipeScript.Rule

/-!
# Built-in commands

The commands that every machine knows, with the names and texts under which they are listed.  They
come in two libraries: the expression commands, and the few commands of the host that those lean on.
-/

namespace PipeScript

/-- A built-in command. -/
inductive Builtin where
  | both
  | matchCase
  | recover
  | pairs
  | otherwise
  | elseIf
  | filter
  | find
  | forEach
  | getAt
  | condition
  | join
  | prettyJson
  | listing
  | mapItems
  | negate
  | either
  | replace
  | replaceAll
  | setAt
  | shuffle
  | slice
  | split
  | switch
  | compare
  | whenTrue
  | timestamp
  | trim
  | attempt
  | echo
  | flushVar
  | getGlobalVar
  | getVar
  | pass
  | setGlobalVar
  | setVar
  | raise
  deriving DecidableEq

/-- How a command is listed. -/
structure Description where
  name : String
  synopsis : String
  help : String
  aliases : List String := []

namespace Builtin

/-- Where a loop takes its collection from. -/
def loopSynopsis : String :=
  "[optional list=[1,2,3]] [optional var=varname] [optional globalvar=globalvarname] " ++
    "(/command \x7b\x7bitem\x7d\x7d \x7b\x7bindex\x7d\x7d)"

/-- Where a command takes its data from. -/
def sourceSynopsis : String :=
  "[optional var=varname] [optional globalvar=globalvarname]"

def stageSynopsis : String :=
  "[optional pipe=\x7b\x7bpipe\x7d\x7d] "

def replaceSynopsis : String :=
  "[find=string_or_regex] [replace=string] " ++ sourceSynopsis ++ " (optional value)"

def describe : Builtin → Description
  | .both => ⟨"and", "left=val right=val",
      "Returns true if both left and right are true, otherwise false.", []⟩
  | .matchCase => ⟨"case", stageSynopsis ++ "[value=comparisonValue] (/command)",
      "Execute command and break out of the switch if the value given in /switch matches the " ++
        "value given here.", []⟩
  | .recover => ⟨"catch", stageSynopsis ++ "(command)",
      "try catch. /catch must always be called right after /try. Use \x7b\x7bexception\x7d\x7d or " ++
        "\x7b\x7berror\x7d\x7d to get the exception's message.", []⟩
  | .pairs => ⟨"dict", sourceSynopsis ++ " (list of lists)",
      "Takes a list of lists (each item must be a list of at least two items) and creates a " ++
        "dictionary by using each items first item as key and each items second item as value.", []⟩
  | .otherwise => ⟨"else", stageSynopsis ++ "(/command)",
      "Use with /ife, /elseif, and /then. The provided command will be executed if the previous " ++
        "/if or /elseif was false.", []⟩
  | .elseIf => ⟨"elseif", stageSynopsis ++ "(/command)",
      "Use with /ife, /then, and /else. The provided command must return true or false.", []⟩
  | .filter => ⟨"filter", loopSynopsis,
      "Executes command for each item of a list or dictionary and returns the list or dictionary " ++
        "of only those items where the command returned true.", []⟩
  | .find => ⟨"find", loopSynopsis,
      "Executes command for each item of a list or dictionary and returns the first item where " ++
        "the command returned true.", []⟩
  | .forEach => ⟨"foreach", loopSynopsis,
      "Executes command for each item of a list or dictionary.", []⟩
  | .getAt => ⟨"getat", "index=int|fieldname|list " ++ sourceSynopsis ++ " (optional value)",
      "Retrieves an item from a list or a property from a dictionary.", []⟩
  | .condition => ⟨"ife", "(/command)",
      "Use with /then, /elseif, and /else. The provided command must return true or false.", []⟩
  | .join => ⟨"join", "[optional glue=\", \"] " ++ sourceSynopsis ++ " (optional list)",
      "Joins the items of a list with glue into a single string. Use " ++
        "glue=\x7b\x7bspace\x7d\x7d to join with a space.", []⟩
  | .prettyJson => ⟨"json-pretty", "(JSON)", "Pretty print JSON.", []⟩
  | .listing => ⟨"lalib?", "", "Lists LALib commands", []⟩
  | .mapItems => ⟨"map", loopSynopsis,
      "Executes command for each item of a list or dictionary and returns the list or dictionary " ++
        "of the command results.", []⟩
  | .negate => ⟨"not", "(value)", "Returns true if value is false, otherwise true.", []⟩
  | .either => ⟨"or", "left=val right=val",
      "Returns true if at least one of left and right are true, false if both are false.", []⟩
  | .replace => ⟨"replace", replaceSynopsis,
      "Replaces the first occurrence of \"find\" with \"replace\" in the given value or variable.",
      []⟩
  | .replaceAll => ⟨"replaceAll", replaceSynopsis,
      "Replaces all occurrences of \"find\" with \"replace\" in the given value or variable.",
      ["replace-all"]⟩
  | .setAt => ⟨"setat", "index=int|fieldname|list " ++ sourceSynopsis ++
        " [optional value=list|dictionary] (value)",
      "Sets an item in a list or a property in a dictionary. Example: /setat value=[1,2,3] " ++
        "index=1 X returns [1,\"X\",3]. Can be used to create structures that do not already exist.",
      []⟩
  | .shuffle => ⟨"shuffle", "(list to shuffle)", "Returns a shuffled list.", []⟩
  | .slice => ⟨"slice", "start=int [optional end=int] [optional length=int] " ++ sourceSynopsis ++
        " (optional value)",
      "Retrieves a slice of a list or string.", []⟩
  | .split => ⟨"split", "[optional find=\",\"] [optional trim=true|false] " ++ sourceSynopsis ++
        " (value)",
      "Splits value into list at every occurrence of find. Supports regex find=/\\s/", []⟩
  | .switch => ⟨"switch", sourceSynopsis ++ " (optional value)", "Use with /case.", []⟩
  | .compare => ⟨"test", "left=val rule=rule right=val",
      "Returns true or false, depending on whether left and right adhere to rule. Available " ++
        "rules: " ++ Rule.help, []⟩
  | .whenTrue => ⟨"then", stageSynopsis ++ "(/command)",
      "Use with /ife, /elseif, and /else. The provided command will be executed if the previous " ++
        "/if or /elseif was true.", []⟩
  | .timestamp => ⟨"timestamp", "",
      "Returns the number of milliseconds midnight at the beginning of January 1, 1970, UTC.", []⟩
  | .trim => ⟨"trim", "(text to trim)", "Removes whitespace at the start and end of the text.", []⟩
  | .attempt => ⟨"try", "(command)", "try catch.", []⟩
  | .echo => ⟨"echo", "(text)", "Echoes the provided text to the output and passes it on.", []⟩
  | .flushVar => ⟨"flushvar", "(name)", "Deletes a local variable.", []⟩
  | .getGlobalVar => ⟨"getglobalvar", "(name)", "Returns the value of a global variable.", []⟩
  | .getVar => ⟨"getvar", "(name)", "Returns the value of a local variable.", []⟩
  | .pass => ⟨"pass", "(text)", "Passes the text on to the next command.", []⟩
  | .setGlobalVar => ⟨"setglobalvar", "key=name (value)", "Sets a global variable.", []⟩
  | .setVar => ⟨"setvar", "key=name (value)", "Sets a local variable.", []⟩
  | .raise => ⟨"throw", "(message)", "Fails with the given message.", []⟩

/-- The expression commands, in the order in which they are listed. -/
def expressions : List Builtin :=
  [.both, .matchCase, .recover, .pairs, .otherwise, .elseIf, .filter, .find, .forEach, .getAt,
    .condition, .join, .prettyJson, .listing, .mapItems, .negate, .either, .replace, .replaceAll,
    .setAt, .shuffle, .slice, .split, .switch, .compare, .whenTrue, .timestamp, .trim, .attempt]

/-- The commands of the host, in the order in which they are listed. -/
def hostCommands : List Builtin :=
  [.echo, .flushVar, .getGlobalVar, .getVar, .pass, .setGlobalVar, .setVar, .raise]

end Builtin

end PipeScript

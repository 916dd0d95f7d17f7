import PipeScript.Text.Quoted

/-!
# Faults

Everything that can go wrong, by its cause.  A fault has a kind, which names its family, and a
message for the user.  The faults of the command language keep their kind wherever they surface; any
other fault that escapes a command becomes a command failure with the same message (`Fault.escaped`).

Commands are read by a grammar engine that is not part of the language.  The message of a command
without a name (`Fault.namelessCommand`) is the one that engine gives, position and pattern included;
that it says just this is assumed.
-/

namespace PipeScript

/-- Why a date cannot be built from its fields. -/
inductive CalendarFault where
  | year (value : Nat)
  | month
  | day
  | hour
  | minute
  | second
  | offset (text : String)
  deriving DecidableEq

/-- Why a document has no value although it can be read. -/
inductive DocumentFault where
  | calendar (fault : CalendarFault)
  /-- Text that is tagged as an integer and is none, in a base. -/
  | notAnInteger (base : Nat) (text : String)
  /-- Text that is tagged as a number and is none. -/
  | notADouble (text : String)
  /-- Empty text that is tagged as a number. -/
  | emptyNumber
  /-- Text that is tagged as a boolean and is none. -/
  | notABoolean (text : String)
  /-- Text that is tagged as a timestamp and is none. -/
  | notATimestamp
  /-- An escape for a code point beyond the last one. -/
  | codePoint (code : Nat)
  deriving DecidableEq

/-- Why variables cannot be seeded from a document. -/
inductive SeedFault where
  | notAMapping (name : String)
  /-- A section that has no entries at all. -/
  | notEntries (kind : String)
  /-- An element of a section that is no pair, at a position. -/
  | notAPair (position : Nat)
  | pairLength (position length : Nat)
  /-- A pair whose first part cannot be a key. -/
  | badKey (kind : String)
  deriving DecidableEq

inductive Fault where
  | ruleMissing
  | unknownTextRule (rule : String)
  | unknownNumberRule (rule : String)
  /-- A command that walks a collection was given none. -/
  | noCollection (command : String)
  | indexMissing
  | badListIndex (token : String)
  /-- A step into a value that has no parts. -/
  | notWritable (token kind : String)
  | notSliceable (kind : String)
  | notPairs (entry : String)
  | notJson
  | findMissing
  | keyMissing (command : String)
  /-- Raised by the user. -/
  | thrown (message : String)
  /-- A fault from outside the command language, as the failure of the command that met it. -/
  | escaped (message : String)
  | unknownCommand (name : String)
  | notACommand (segment : String)
  | namelessCommand (segment : String)
  /-- An argument value whose opening character is never closed. -/
  | unclosed (opener : Char) (segment : String)
  | nestingLimit (limit : Nat)
  /-- An integer too long to be written, or to be read when its digits are counted. -/
  | digitLimit (digits : Option Nat)
  | doubleOverflow
  /-- A list too long to be stored; `beyondWords` when not even its length can be. -/
  | listTooLong (beyondWords : Bool)
  | badPattern (message : String)
  | document (fault : DocumentFault)
  | seed (fault : SeedFault)
  /-- A result that the stream it is printed on cannot encode. -/
  | unprintable (message : String)
  /-- Raised by a command of the host. -/
  | host (kind message : String)
  deriving DecidableEq

def CalendarFault.message : CalendarFault → String
  | .year value => s!"year {value} is out of range"
  | .month => "month must be in 1..12"
  | .day => "day is out of range for month"
  | .hour => "hour must be in 0..23"
  | .minute => "minute must be in 0..59"
  | .second => "second must be in 0..59"
  | .offset text =>
    "offset must be a timedelta strictly between -timedelta(hours=24) and timedelta(hours=24), not "
      ++ text ++ "."

def DocumentFault.kind : DocumentFault → String
  | .emptyNumber => "IndexError"
  | .notABoolean _ => "KeyError"
  | .notATimestamp => "AttributeError"
  | .codePoint code => if code < 0x80000000 then "ValueError" else "OverflowError"
  | _ => "ValueError"

def DocumentFault.message : DocumentFault → String
  | .calendar fault => fault.message
  | .notAnInteger base text =>
    s!"invalid literal for int() with base {base}: " ++ ((Text.quoted text).take 200).toString
  | .notADouble text => "could not convert string to float: " ++ Text.quoted text
  | .emptyNumber => "string index out of range"
  | .notABoolean text => Text.quoted text
  | .notATimestamp => "'NoneType' object has no attribute 'groupdict'"
  | .codePoint code =>
    if code < 0x80000000 then "chr() arg not in range(0x110000)"
    else "Python int too large to convert to C int"

def SeedFault.kind : SeedFault → String
  | .notAMapping _ => "ValueError"
  | .pairLength _ _ => "ValueError"
  | _ => "TypeError"

def SeedFault.message : SeedFault → String
  | .notAMapping name => "variables file must contain a mapping: " ++ name
  | .notEntries kind => "'" ++ kind ++ "' object is not iterable"
  | .notAPair position =>
    s!"cannot convert dictionary update sequence element #{position} to a sequence"
  | .pairLength position length =>
    s!"dictionary update sequence element #{position} has length {length}; 2 is required"
  | .badKey kind => "unhashable type: '" ++ kind ++ "'"

namespace Fault

/-- The family of a fault. -/
def kind : Fault → String
  | ruleMissing | unknownTextRule _ | unknownNumberRule _ => "InvalidRuleError"
  | noCollection _ => "MissingCollectionError"
  | indexMissing | badListIndex _ | notWritable _ _ => "IndexPathError"
  | notSliceable _ | notPairs _ | notJson | findMissing | keyMissing _ | thrown _ | escaped _ =>
    "UserHandlerFailure"
  | unknownCommand _ => "UnknownCommandError"
  | notACommand _ | namelessCommand _ | unclosed _ _ => "PipelineSyntaxError"
  | nestingLimit _ => "NestingLimitError"
  | digitLimit _ => "ValueError"
  | doubleOverflow => "OverflowError"
  | listTooLong beyondWords => if beyondWords then "OverflowError" else "MemoryError"
  | badPattern _ => "error"
  | document fault => fault.kind
  | seed fault => fault.kind
  | unprintable _ => "UnicodeEncodeError"
  | host kind _ => kind

/-- How the opening character of an argument value is called. -/
def openerName (opener : Char) : String :=
  if opener == '"' then "quote" else "'" ++ String.singleton opener ++ "'"

/-- What the user is told. -/
def message : Fault → String
  | ruleMissing => "The rule must be specified for the boolean comparison."
  | unknownTextRule rule => "Unknown boolean comparison rule for type string: " ++ rule
  | unknownNumberRule rule => "Unknown boolean comparison rule for type number: " ++ rule
  | noCollection command =>
    (if command = "" then "" else "/" ++ command ++ ": ") ++ "no list or dictionary to work on"
  | indexMissing => "index is required"
  | badListIndex token => "cannot use " ++ Text.quoted token ++ " as a list index"
  | notWritable token kind => "cannot set " ++ Text.quoted token ++ " on a " ++ kind ++ " value"
  | notSliceable kind => "/slice: cannot slice a " ++ kind ++ " value"
  | notPairs entry => "/dict: expected a list of pairs, got " ++ entry
  | notJson => "/json-pretty: value is not valid JSON"
  | findMissing => "find= is required"
  | keyMissing command => "/" ++ command ++ ": key= is required"
  | thrown message => message
  | escaped message => message
  | unknownCommand name => "Unknown command: /" ++ name
  | notACommand segment => "expected a /command, got: " ++ Text.quoted segment
  | namelessCommand segment =>
    "Syntax error in input text at L1:C1 while parsing rule 'command': " ++
      "Expected regex matching r\"/\\S+\" (in " ++ Text.quoted segment ++ ")"
  | unclosed opener segment => "unterminated " ++ openerName opener ++ " in: " ++ segment
  | nestingLimit limit => s!"pipelines nested deeper than {limit}"
  | digitLimit digits =>
    "Exceeds the limit (4300 digits) for integer string conversion" ++
      (match digits with | some n => s!": value has {n} digits" | none => "") ++
      "; use sys.set_int_max_str_digits() to increase the limit"
  | doubleOverflow => "int too large to convert to float"
  | listTooLong beyondWords =>
    if beyondWords then "cannot fit 'int' into an index-sized integer" else ""
  | badPattern message => message
  | document fault => fault.message
  | seed fault => fault.message
  | unprintable message => message
  | host _ message => message

/-- Whether a fault belongs to the command language. -/
def isOwn : Fault → Bool
  | digitLimit _ | doubleOverflow | listTooLong _ | badPattern _ | document _ | seed _
  | unprintable _ | host _ _ => false
  | _ => true

/-- A fault as it leaves a command: one from outside becomes a command failure that says the same,
or names its kind when it says nothing. -/
def leavingCommand (f : Fault) : Fault :=
  if f.isOwn then f else .escaped (if f.message = "" then f.kind else f.message)

end Fault

namespace Yaml

/-- Why a text gives no value as YAML. -/
inductive Failure where
  /-- The text is no document. -/
  | malformed
  /-- The text is a document, and a part of it denotes nothing. -/
  | meaningless (fault : Fault)
  deriving DecidableEq

end Yaml

end PipeScript

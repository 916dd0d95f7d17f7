import PipeScript.Number.Reader
import PipeScript.Yaml.Timestamp

/-!
# Kinds of nodes

The kind of a node says which value it denotes.  A tag names it; without one, a plain text has the
first kind whose form it has, a quoted text is a text, and lists and dictionaries are what they are.
The forms are those of YAML 1.1: `yes` and `off` are booleans, a leading zero means octal, and colons
separate digits of base sixty.
-/

namespace PipeScript.Yaml

open Text

inductive Kind where
  | null
  | bool
  | int
  | float
  | moment
  | text
  | list
  | dict
  /-- The key under which another dictionary is merged in. -/
  | merge
  /-- The key of the item that stands for a whole dictionary. -/
  | standIn
  /-- Everything else has no value. -/
  | unknown
  deriving DecidableEq

/-- The beginning of the tags that are known. -/
def knownTags : String := "tag:yaml.org,2002:"

/-- The kind that a tag names.  Sets, binary data and lists of pairs have tags too; no kind is kept for
them, so a text that uses one is malformed. -/
def Kind.ofTag (tag : String) : Kind :=
  let name (s : String) : Bool := tag == knownTags ++ s
  if name "null" then .null
  else if name "bool" then .bool
  else if name "int" then .int
  else if name "float" then .float
  else if name "timestamp" then .moment
  else if name "str" then .text
  else if name "seq" then .list
  else if name "map" then .dict
  else if name "merge" then .merge
  else if name "value" then .standIn
  else .unknown

/-! ### Forms of plain texts -/

/-- Cuts a text at every occurrence of a character. -/
def cutAtChar (mark : Char) : List Char → List (List Char)
  | [] => [[]]
  | c :: rest =>
    if c == mark then [] :: cutAtChar mark rest
    else
      match cutAtChar mark rest with
      | [] => [[c]]
      | piece :: pieces => (c :: piece) :: pieces

def isDigitOrBar (c : Char) : Bool :=
  isAsciiDigit c || c == '_'

/-- A digit that passes a test, then digits and bars. -/
def isGrouped (first : Char → Bool) : List Char → Bool
  | c :: rest => first c && rest.all isDigitOrBar
  | [] => false

/-- A digit of base sixty. -/
def isSixtieth : List Char → Bool
  | [d] => isAsciiDigit d
  | [t, d] => '0' ≤ t && t ≤ '5' && isAsciiDigit d
  | _ => false

/-- At least one digit that passes a test, bars aside. -/
def isRun (p : Char → Bool) (cs : List Char) : Bool :=
  !cs.isEmpty && cs.all fun c => p c || c == '_'

def isNonZeroDigit (c : Char) : Bool :=
  isAsciiDigit c && c != '0'

/-- The form of integers. -/
def isIntegerForm (cs : List Char) : Bool :=
  match (splitSign cs).2 with
  | '0' :: 'b' :: digits => isRun (fun c => c == '0' || c == '1') digits
  | '0' :: 'x' :: digits => isRun (fun c => (hexValue? c).isSome) digits
  | '0' :: digits => digits.isEmpty || isRun (fun c => '0' ≤ c && c ≤ '7') digits
  | body =>
    match cutAtChar ':' body with
    | first :: more => isGrouped isNonZeroDigit first && more.all isSixtieth
    | [] => false

/-- A power of ten with a sign, or nothing. -/
def isSignedPower : List Char → Bool
  | [] => true
  | mark :: sign :: digits =>
    (mark == 'e' || mark == 'E') && (sign == '-' || sign == '+') && !digits.isEmpty &&
      digits.all isAsciiDigit
  | _ => false

/-- The form of doubles. -/
def isDoubleForm (cs : List Char) : Bool :=
  let body := (splitSign cs).2
  let text := String.ofList cs
  if [".inf", ".Inf", ".INF"].contains (String.ofList body) || [".nan", ".NaN", ".NAN"].contains text
  then true
  else
    match cs with
    | '.' :: digits =>
      isGrouped isAsciiDigit (digits.takeWhile isDigitOrBar) &&
        isSignedPower (digits.dropWhile isDigitOrBar)
    | _ =>
      match body.dropWhile (· != '.') with
      | '.' :: fraction =>
        match cutAtChar ':' (body.takeWhile (· != '.')) with
        | [whole] => isGrouped isAsciiDigit whole && isSignedPower (fraction.dropWhile isDigitOrBar)
        | first :: more =>
          isGrouped isAsciiDigit first && more.all isSixtieth && fraction.all isDigitOrBar
        | [] => false
      | _ => false

/-- The words that are booleans, in small letters. -/
def boolWords : List (String × Bool) :=
  [("yes", true), ("no", false), ("true", true), ("false", false), ("on", true), ("off", false)]

/-- The spellings of a word: small, with a capital, all capitals. -/
def spellings (word : String) : List String :=
  [word, word.capitalize, word.map Char.toUpper]

/-- A text without the line feed that may end it. -/
def withoutFinalFeed (cs : List Char) : List Char :=
  if cs.getLast? == some '\n' then cs.dropLast else cs

/-- The kind of an untagged plain text.  A line feed at its end does not count. -/
def Kind.ofPlain (cs : List Char) : Kind :=
  let body := withoutFinalFeed cs
  let text := String.ofList body
  if boolWords.any fun (word, _) => (spellings word).contains text then .bool
  else if isDoubleForm body then .float
  else if isIntegerForm body then .int
  else if text == "<<" then .merge
  else if cs.isEmpty || text == "~" || (spellings "null").contains text then .null
  else if isPlainTimestamp body then .moment
  else if text == "=" then .standIn
  else .text

end PipeScript.Yaml

import PipeScript.Pattern.Reader
import PipeScript.Pattern.Matcher

/-!
# Replacements

A replacement text refers to the match it replaces: `$&` is the match, `` $` `` and `$'` are the text
before and after it, `$$` is a dollar sign, and a dollar sign with one or two digits is a group.  A
reference to a group that the pattern lacks, and any other dollar sign, stays as it is.
-/

namespace PipeScript

/-- What a replacement text can refer to. -/
structure Occurrence where
  before : List Char
  matched : List Char
  after : List Char
  /-- The texts of the groups, from the first; a group that took no part is empty. -/
  groups : List (List Char)

namespace Occurrence

/-- The text of a reference by digits; `digits` are the reference as written. -/
def groupText (o : Occurrence) (digits : List Char) : List Char :=
  let index := digits.foldl (fun n c => 10 * n + Text.anyDigitValue c) 0
  if 0 < index then (o.groups[index - 1]?).getD ('$' :: digits) else '$' :: digits

/-- What a dollar sign stands for before the rest of the replacement, and how many characters of the
rest belong to it. -/
def reference (o : Occurrence) : List Char → List Char × Nat
  | '$' :: _ => (['$'], 1)
  | '&' :: _ => (o.matched, 1)
  | '\x60' :: _ => (o.before, 1)
  | '\'' :: _ => (o.after, 1)
  | c :: rest =>
    if Text.isDigit c then
      match rest with
      | d :: _ => if Text.isDigit d then (o.groupText [c, d], 2) else (o.groupText [c], 1)
      | [] => (o.groupText [c], 1)
    else (['$'], 0)
  | [] => (['$'], 0)

/-- The text that a replacement stands for; while `skip` is positive the scan stands inside a
reference. -/
def expandFrom (o : Occurrence) : (skip : Nat) → List Char → List Char
  | _, [] => []
  | skip + 1, _ :: rest => expandFrom o skip rest
  | 0, c :: rest =>
    if c = '$' then (o.reference rest).1 ++ expandFrom o (o.reference rest).2 rest
    else c :: expandFrom o 0 rest

/-- The text that a replacement stands for. -/
def expand (o : Occurrence) (replacement : List Char) : List Char :=
  o.expandFrom 0 replacement

/-- The occurrence that a match is. -/
def ofMatch (text : Array Char) (m : Match) : Occurrence where
  before := Pattern.spanText text (0, m.start)
  matched := Pattern.spanText text (m.start, m.stop)
  after := Pattern.spanText text (m.stop, text.size)
  groups := (m.groups.toList.drop 1).map fun span => (span.map (Pattern.spanText text)).getD []

end Occurrence

namespace Pattern

/-- Replaces the first match or all of them. -/
def replace (p : Pattern) (all : Bool) (replacement : List Char) (text : List Char) : List Char :=
  let chars := text.toArray
  let found := if all then p.allMatches chars
    else (p.search? chars (chars.size + 1) 0 false).toList
  replaceMatches chars (fun m => (Occurrence.ofMatch chars m).expand replacement) 0 found

/-- The pieces of a text between the matches, with the groups of each match. -/
def split (p : Pattern) (text : List Char) : List (List Char) :=
  let chars := text.toArray
  splitMatches chars 0 (p.allMatches chars)

end Pattern

/-- A pattern between slashes, with the letters after them. -/
structure PatternLiteral where
  source : String
  flags : String
  deriving DecidableEq

namespace PatternLiteral

/-- Cuts at the last slash: what stands before it and after it. -/
def cutLastSlash? (cs : List Char) : Option (List Char × List Char) :=
  let reversed := cs.reverse
  match reversed.dropWhile (· ≠ '/') with
  | [] => none
  | _ :: before => some (before.reverse, (reversed.takeWhile (· ≠ '/')).reverse)

/-- Reads `/source/flags`: the source is not empty and stays on one line, the flags are lower case
letters; one line end may follow. -/
def ofChars? (cs : List Char) : Option PatternLiteral :=
  match if cs.getLast? = some '\n' then cs.dropLast else cs with
  | '/' :: body =>
    match cutLastSlash? body with
    | some (source, flags) =>
      if !source.isEmpty && !source.contains '\n' && flags.all (fun c => 'a' ≤ c && c ≤ 'z') then
        some ⟨String.ofList source, String.ofList flags⟩
      else none
    | none => none
  | _ => none

def ofText? (s : String) : Option PatternLiteral :=
  ofChars? s.toList

/-- The modes that the flags put in force. -/
def mode (l : PatternLiteral) : Pattern.Mode :=
  { ignoreCase := l.flags.toList.contains 'i'
    multiLine := l.flags.toList.contains 'm'
    dotAll := l.flags.toList.contains 's' }

/-- Whether the flags ask for every match. -/
def isGlobal (l : PatternLiteral) : Bool :=
  l.flags.toList.contains 'g'

end PatternLiteral

end PipeScript

import PipeScript.Text.Case
import PipeScript.Text.Blank
import PipeScript.Text.Class

/-!
# Patterns

A pattern is a tree of single character tests, sequences, alternatives, groups, repetitions and
conditions on the surroundings.  The modes in which a part was written (regardless of case, ASCII
only, and so on) are resolved into the tests, so that the meaning of a part does not depend on where it
stands.
-/

namespace PipeScript

namespace Pattern

/-- How letters are compared. -/
inductive Fold where
  | exact
  | anyCase
  | asciiCase
  deriving DecidableEq

/-- Classes with a name of their own. -/
inductive CharKind where
  | digit
  | space
  | word
  deriving DecidableEq

/-- A member of a character set.  Characters are given as code points, which may belong to no
character at all. -/
inductive Member where
  | point (code : Nat)
  | range (low high : Nat)
  | kind (k : CharKind) (negated ascii : Bool)
  deriving DecidableEq

/-- A test for a single character. -/
inductive CharTest where
  | any
  | notLineFeed
  | set (fold : Fold) (negated : Bool) (members : List Member)
  deriving DecidableEq

/-- A condition on a position. -/
inductive Anchor where
  | textStart
  | lineStart
  | textEnd
  /-- The end, or right before a line feed that ends the text. -/
  | lastLineEnd
  | lineEnd
  | boundary (negated ascii : Bool)
  deriving DecidableEq

inductive Style where
  | greedy
  | lazy
  | possessive
  deriving DecidableEq

/-- The least and the greatest number of characters that a part can match. -/
abbrev Width := Nat × Nat

inductive Node where
  | empty
  | single (test : CharTest)
  | anchor (a : Anchor)
  | seq (first second : Node)
  | alt (first second : Node)
  | group (index : Nat) (body : Node)
  | backref (fold : Fold) (index : Nat)
  | loop (style : Style) (least : Nat) (most : Option Nat) (body : Node)
  | atomic (body : Node)
  /-- A condition on what follows, or on what precedes with the width of that. -/
  | look (behind : Option Width) (negated : Bool) (body : Node)
  /-- One of two parts, by whether a group has matched. -/
  | ifGroup (index : Nat) (yes no : Node)

/-! ### Tests -/

def isAsciiWord (c : Char) : Bool :=
  Text.isAsciiLetter c || Text.isAsciiDigit c || c == '_'

def isAsciiSpace (c : Char) : Bool :=
  c == ' ' || (0x09 ≤ c.toNat && c.toNat ≤ 0x0D)

def CharKind.holds (k : CharKind) (ascii : Bool) (c : Char) : Bool :=
  match k with
  | .digit => if ascii then Text.isAsciiDigit c else Text.isDigit c
  | .space => if ascii then isAsciiSpace c else Text.isBlank c
  | .word => if ascii then isAsciiWord c else Text.isWord c

/-- The letters whose lower case is a given character. -/
def lowerPreimages (c : Char) : List Nat :=
  c.toNat :: Text.lowerRuns.filterMap fun run =>
    let source := ((c.toNat : Int) - run.shift).toNat
    if run.image? source == some c.toNat then some source else none

/-- The characters that a character counts as. -/
def Fold.points (fold : Fold) (c : Char) : List Nat :=
  match fold with
  | .exact => [c.toNat]
  | .asciiCase => if c.toNat < 0x80 then [c.toLower.toNat, c.toUpper.toNat] else [c.toNat]
  | .anyCase =>
    let lowered := Text.lowerChar c
    (lowered :: Text.twinsOf lowered).flatMap lowerPreimages

def Member.holds (points : List Nat) (c : Char) : Member → Bool
  | .point code => points.contains code
  | .range low high => points.any fun p => low ≤ p && p ≤ high
  | .kind k negated ascii => k.holds ascii c != negated

def CharTest.holds (c : Char) : CharTest → Bool
  | .any => true
  | .notLineFeed => c != '\n'
  | .set fold negated members =>
    let points := fold.points c
    members.any (·.holds points c) != negated

/-- Whether two characters of a repeated text agree. -/
def Fold.agree (fold : Fold) (a b : Char) : Bool :=
  match fold with
  | .exact => a == b
  | .asciiCase => if a.toNat < 0x80 && b.toNat < 0x80 then a.toLower == b.toLower else a == b
  | .anyCase => Text.lowerChar a == Text.lowerChar b

/-! ### Widths -/

/-- The greatest width that is told apart. -/
def widthLimit : Nat := 0x10000000000000000

/-- The width of a part, given the widths of the groups closed so far. -/
def Node.width (groups : Array (Option Width)) : Node → Width
  | .empty => (0, 0)
  | .single _ => (1, 1)
  | .anchor _ => (0, 0)
  | .seq a b =>
    let (l, h) := a.width groups
    let (m, i) := b.width groups
    (min (l + m) widthLimit, min (h + i) widthLimit)
  | .alt a b =>
    let (l, h) := a.width groups
    let (m, i) := b.width groups
    (min l m, max h i)
  | .group _ body => body.width groups
  | .backref _ index => ((groups[index]?).join).getD (0, 0)
  | .loop _ least most body =>
    let (l, h) := body.width groups
    let high := match most with
      | some n => h * n
      | none => if h = 0 then 0 else widthLimit
    (min (l * least) widthLimit, min high widthLimit)
  | .atomic body => body.width groups
  | .look _ _ _ => (0, 0)
  | .ifGroup _ yes no =>
    let (l, h) := yes.width groups
    let (m, i) := no.width groups
    (min l m, max h i)

/-- The first complaint about the width of what precedes a position. -/
def Node.widthComplaint? : Node → Option String
  | .seq a b => a.widthComplaint?.or b.widthComplaint?
  | .alt a b => a.widthComplaint?.or b.widthComplaint?
  | .group _ body => body.widthComplaint?
  | .loop _ _ _ body => body.widthComplaint?
  | .atomic body => body.widthComplaint?
  | .look (some (low, high)) _ body =>
    if low ≥ 0x100000000 then some "looks too much behind"
    else if low ≠ high then some "look-behind requires fixed-width pattern"
    else body.widthComplaint?
  | .look none _ body => body.widthComplaint?
  | .ifGroup _ yes no => yes.widthComplaint?.or no.widthComplaint?
  | _ => none

end Pattern

/-- A pattern and the number of its groups. -/
structure Pattern where
  node : Pattern.Node
  groups : Nat

/-- What is wrong with the text of a pattern, and where. -/
structure PatternError where
  problem : String
  position : Option Nat := none
  deriving DecidableEq

namespace PatternError

/-- The line and the column of a position. -/
def lineAndColumn (source : List Char) (position : Nat) : Nat × Nat :=
  let before := source.take position
  (before.count '\n' + 1, (before.reverse.takeWhile (· ≠ '\n')).length + 1)

/-- The message: the problem, its position, and in a text of several lines also line and column. -/
def message (source : List Char) (e : PatternError) : String :=
  match e.position with
  | none => e.problem
  | some position =>
    let plain := e.problem ++ s!" at position {position}"
    if source.contains '\n' then
      let (line, column) := lineAndColumn source position
      plain ++ s!" (line {line}, column {column})"
    else plain

end PatternError

end PipeScript

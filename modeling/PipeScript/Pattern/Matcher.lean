import PipeScript.Pattern.Basic

/-!
# Matching

A part is matched against a text from a position, and a continuation decides whether the rest fits;
when it does not, the part offers its next way to match.  A repetition beyond its least count stops at
an iteration that would start where the one before it started, so the rest of the text bounds the
number of iterations.
-/

namespace PipeScript

namespace Pattern

/-- Where a group has matched. -/
abbrev Span := Nat × Nat

/-- A position in the text and what the groups have matched so far. -/
structure MatchState where
  position : Nat
  captures : Array (Option Span)

/-- What is left to match: it answers the end of the whole match. -/
abbrev Continuation := MatchState → Option MatchState

def MatchState.capture? (s : MatchState) (index : Nat) : Option Span :=
  (s.captures[index]?).join

/-- Whether the character at an offset is a word character; there is none beyond the ends. -/
def wordAt (text : Array Char) (ascii : Bool) (position : Nat) : Bool :=
  match text[position]? with
  | some c => CharKind.word.holds ascii c
  | none => false

/-- Whether an anchor holds at a position. -/
def Anchor.holds (text : Array Char) (position : Nat) : Anchor → Bool
  | .textStart => position == 0
  | .lineStart => position == 0 || text[position - 1]? == some '\n'
  | .textEnd => position == text.size
  | .lastLineEnd =>
    position == text.size || (position + 1 == text.size && text[position]? == some '\n')
  | .lineEnd => position == text.size || text[position]? == some '\n'
  | .boundary negated ascii =>
    let before := position != 0 && wordAt text ascii (position - 1)
    let after := wordAt text ascii position
    text.size != 0 && ((before != after) != negated)

/-- Whether the text at a position repeats an earlier part. -/
def repeats (text : Array Char) (fold : Fold) (span : Span) (position : Nat) : Bool :=
  let earlier := text.extract span.1 span.2
  let here := text.extract position (position + (span.2 - span.1))
  earlier.size == here.size && (earlier.zip here).all fun (a, b) => fold.agree a b

/-- Repeats a part.  `count` iterations are done, the last one beyond the least count started at
`last`; `fuel` bounds the iterations. -/
def iterate (body : Continuation → Continuation) (lazy : Bool) (least : Nat) (most : Option Nat)
    (k : Continuation) : (fuel count : Nat) → (last : Option Nat) → Continuation
  | 0, _, _, s => k s
  | fuel + 1, count, last, s =>
    if count < least then body (iterate body lazy least most k fuel (count + 1) last) s
    else
      let mayGoOn := (match most with | some n => count < n | none => true) &&
        last != some s.position
      let goOn (_ : Unit) :=
        if mayGoOn then
          body (iterate body lazy least most k fuel (count + 1) (some s.position)) s
        else none
      if lazy then
        match k s with
        | some done => some done
        | none => goOn ()
      else
        match goOn () with
        | some done => some done
        | none => k s

/-- Matches a part and then what is left. -/
def Node.run (text : Array Char) : Node → Continuation → Continuation
  | .empty, k, s => k s
  | .single test, k, s =>
    match text[s.position]? with
    | some c => if test.holds c then k { s with position := s.position + 1 } else none
    | none => none
  | .anchor a, k, s => if a.holds text s.position then k s else none
  | .seq a b, k, s => a.run text (b.run text k) s
  | .alt a b, k, s =>
    match a.run text k s with
    | some done => some done
    | none => b.run text k s
  | .group index body, k, s =>
    body.run text
      (fun t => k { t with captures := t.captures.setIfInBounds index (some (s.position, t.position)) }) s
  | .backref fold index, k, s =>
    match s.capture? index with
    | some span =>
      if repeats text fold span s.position then
        k { s with position := s.position + (span.2 - span.1) }
      else none
    | none => none
  | .loop .possessive least most body, k, s =>
    let once : Continuation → Continuation := fun k s => (body.run text some s).bind k
    let fuel := least + (text.size - s.position) + 2
    (iterate once false least most some fuel 0 none s).bind k
  | .loop style least most body, k, s =>
    let fuel := least + (text.size - s.position) + 2
    iterate (fun k s => body.run text k s) (style == .lazy) least most k fuel 0 none s
  | .atomic body, k, s => (body.run text some s).bind k
  | .look behind negated body, k, s =>
    let back := match behind with | some (low, _) => low | none => 0
    let found :=
      if s.position < back then none
      else body.run text some { s with position := s.position - back }
    match found, negated with
    | some t, false => k { t with position := s.position }
    | none, true => k s
    | _, _ => none
  | .ifGroup index yes no, k, s =>
    if (s.capture? index).isSome then yes.run text k s else no.run text k s

end Pattern

/-- A match of a pattern: where it lies, and where its groups lie. -/
structure Match where
  start : Nat
  stop : Nat
  /-- The groups, the first at index 1. -/
  groups : Array (Option Pattern.Span)

namespace Pattern

/-- Matches at a position; `advance` refuses a match of nothing. -/
def matchAt? (p : Pattern) (text : Array Char) (position : Nat) (advance : Bool) : Option Match :=
  let accept : Continuation := fun s => if advance && s.position == position then none else some s
  let start : MatchState := ⟨position, Array.replicate (p.groups + 1) none⟩
  (p.node.run text accept start).map fun s => ⟨position, s.position, s.captures⟩

/-- The first match from a position on; `advance` concerns that position only. -/
def search? (p : Pattern) (text : Array Char) : (fuel position : Nat) → (advance : Bool) →
    Option Match
  | 0, _, _ => none
  | fuel + 1, position, advance =>
    match p.matchAt? text position advance with
    | some m => some m
    | none => if position < text.size then search? p text fuel (position + 1) false else none

/-- The matches from a position on, left to right.  A match of nothing is not repeated at its place. -/
def matchesFrom (p : Pattern) (text : Array Char) : (fuel position : Nat) → (advance : Bool) →
    List Match
  | 0, _, _ => []
  | fuel + 1, position, advance =>
    match p.search? text (text.size + 1) position advance with
    | some m => m :: matchesFrom p text fuel m.stop (m.stop == m.start)
    | none => []

/-- All matches in a text. -/
def allMatches (p : Pattern) (text : Array Char) : List Match :=
  p.matchesFrom text (2 * text.size + 3) 0 false

/-- The text of a span. -/
def spanText (text : Array Char) (span : Span) : List Char :=
  (text.extract span.1 span.2).toList

/-- Replaces matches, given left to right, by texts that depend on them. -/
def replaceMatches (text : Array Char) (expand : Match → List Char) (position : Nat) :
    List Match → List Char
  | [] => spanText text (position, text.size)
  | m :: rest =>
    spanText text (position, m.start) ++ expand m ++ replaceMatches text expand m.stop rest

/-- The pieces between matches, each followed by the texts of the groups of the match after it. -/
def splitMatches (text : Array Char) (position : Nat) : List Match → List (List Char)
  | [] => [spanText text (position, text.size)]
  | m :: rest =>
    spanText text (position, m.start) ::
      ((m.groups.toList.drop 1).map fun span => (span.map (spanText text)).getD []) ++
        splitMatches text m.stop rest

end Pattern

end PipeScript

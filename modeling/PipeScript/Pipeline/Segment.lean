import PipeScript.Text.Blank
import PipeScript.Text.Search

/-!
# Segments

A pipeline is cut into segments at its bars.  A backslash right before a bar makes it part of the
segment, and the cut takes that backslash away: a pipeline nested inside an argument loses one
backslash per level.  Blank segments are dropped.

The cut is a grammar of the language, run by the same engine as the grammar of calls
(`PipeScript.Pipeline.Call`) and under the same assumption: ordered choice, so an escaped bar is tried
before any other character, and repetitions that give nothing back.
-/

namespace PipeScript

namespace Pipeline

open Text

/-- Cuts at every bar without a backslash and frees the other bars of theirs. -/
def cutBars : List Char → List (List Char)
  | [] => [[]]
  | '\\' :: '|' :: rest => extendFirst '|' (cutBars rest)
  | '|' :: rest => [] :: cutBars rest
  | c :: rest => extendFirst c (cutBars rest)

def isBlankSegment (segment : List Char) : Bool :=
  segment.all isBlank

/-- The segments of a pipeline that are not blank. -/
def segments (text : String) : List String :=
  ((cutBars text.toList).filter fun segment => !isBlankSegment segment).map String.ofList

/-- Puts a backslash before every bar. -/
def escapeBars (text : List Char) : List Char :=
  text.flatMap fun c => if c = '|' then ['\\', '|'] else [c]

end Pipeline

end PipeScript

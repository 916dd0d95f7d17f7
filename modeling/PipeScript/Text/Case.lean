import PipeScript.Text.CaseTable

/-!
# Letter case

Lower and upper case of whole texts, and the comparison of letters regardless of case.  Three rules
go beyond a letter by letter mapping: a capital sigma at the end of a word becomes a final sigma, a
capital I with a dot becomes two characters, and some letters have an upper case of several
characters.
-/

namespace PipeScript.Text

/-- The lower case letter of a character. -/
def lowerChar (c : Char) : Char :=
  if c.toNat < 0x80 then c.toLower
  else ((lowerRuns.findSome? (·.image? c.toNat)).map Char.ofNat).getD c

/-- The upper case letter of a character that has a single one. -/
def upperChar (c : Char) : Char :=
  if c.toNat < 0x80 then c.toUpper
  else ((upperRuns.findSome? (·.image? c.toNat)).map Char.ofNat).getD c

/-- Lower case letters that share their upper case with a lower case letter. -/
def twinsOf (c : Char) : List Char :=
  ((lowerTwins.lookup c.toNat).getD []).map Char.ofNat

/-- Two characters are the same letter regardless of case. -/
def sameLetter (a b : Char) : Bool :=
  let x := lowerChar a
  let y := lowerChar b
  x == y || (twinsOf x).contains y

/-- The text before or after a character, nearest first, has a letter next to it. -/
def touchesLetter (neighbours : List Char) : Bool :=
  match neighbours.dropWhile (caseIgnorableSet.contains ·) with
  | [] => false
  | c :: _ => casedSet.contains c

/-- Lower case, with `before` the characters already passed, nearest first. -/
def lowerCharsAfter (before : List Char) : List Char → List Char
  | [] => []
  | c :: rest =>
    let lowered :=
      if c == 'Σ' then [if touchesLetter before && !touchesLetter rest then 'ς' else 'σ']
      else if c == 'İ' then ['i', '\u0307']
      else [lowerChar c]
    lowered ++ lowerCharsAfter (c :: before) rest

/-- The lower case of a text. -/
def lower (s : String) : String :=
  String.ofList (lowerCharsAfter [] s.toList)

/-- The upper case of a character, which may be several. -/
def upperOf (c : Char) : List Char :=
  match upperSequences.lookup c.toNat with
  | some points => points.map Char.ofNat
  | none => [upperChar c]

/-- The upper case of a text, for commands of the host. -/
def upper (s : String) : String :=
  String.ofList (s.toList.flatMap upperOf)

end PipeScript.Text

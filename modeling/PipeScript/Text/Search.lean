/-!
# Substrings

Search for a fixed text inside another: the first occurrence, all occurrences from left to right
without overlap, and the pieces between them.  The scans walk the text once; while `skip` is
positive they stand inside an occurrence already found.
-/

namespace PipeScript.Text

/-- The text before and after the first occurrence of `needle`. -/
def breakOn (needle : List Char) : List Char → Option (List Char × List Char)
  | [] => if needle.isEmpty then some ([], []) else none
  | c :: rest =>
    if needle.isPrefixOf (c :: rest) then some ([], (c :: rest).drop needle.length)
    else (breakOn needle rest).map fun (before, after) => (c :: before, after)

/-- Whether `needle` occurs in a text. -/
def occursIn (needle s : String) : Bool :=
  (breakOn needle.toList s.toList).isSome

/-- Puts a character in front of the first piece. -/
def extendFirst (c : Char) : List (List Char) → List (List Char)
  | [] => [[c]]
  | piece :: pieces => (c :: piece) :: pieces

/-- The pieces between the occurrences of a non-empty `needle`. -/
def piecesFrom (needle : List Char) : (skip : Nat) → List Char → List (List Char)
  | _, [] => [[]]
  | skip + 1, _ :: rest => piecesFrom needle skip rest
  | 0, c :: rest =>
    if needle.isPrefixOf (c :: rest) then [] :: piecesFrom needle (needle.length - 1) rest
    else extendFirst c (piecesFrom needle 0 rest)

/-- Cuts a text at every occurrence of a non-empty `needle`. -/
def cutAt (needle s : String) : List String :=
  (piecesFrom needle.toList 0 s.toList).map String.ofList

/-- Replaces every occurrence of a non-empty text. -/
def replaceFrom (old new : List Char) : (skip : Nat) → List Char → List Char
  | _, [] => []
  | skip + 1, _ :: rest => replaceFrom old new skip rest
  | 0, c :: rest =>
    if old.isPrefixOf (c :: rest) then new ++ replaceFrom old new (old.length - 1) rest
    else c :: replaceFrom old new 0 rest

/-- Replaces every occurrence of a non-empty text by another. -/
def replaceEvery (old new s : String) : String :=
  String.ofList (replaceFrom old.toList new.toList 0 s.toList)

/-- Whether a text ends in `suffix`. -/
def endsWith (suffix s : String) : Bool :=
  suffix.toList.isSuffixOf s.toList

end PipeScript.Text

/-!
# White space

Two sets of white space are in use.  Values and lines are stripped of *blanks*; the command grammar
skips *gaps*.  The information separators U+001C to U+001F are blanks and no gaps, the Mongolian
vowel separator U+180E is a gap and no blank; all other members are common.

The grammar says no more than that it skips white space.  What that is comes from the pattern library
of the engine that runs the grammar, which is not part of the language; the gaps are assumed to be the
white space of that library with its Unicode properties.
-/

namespace PipeScript.Text

/-- The white space that both sets have. -/
def isSpace (c : Char) : Bool :=
  let n := c.toNat
  (0x09 ≤ n && n ≤ 0x0D) || n == 0x20 || n == 0x85 || n == 0xA0 || n == 0x1680 ||
    (0x2000 ≤ n && n ≤ 0x200A) || n == 0x2028 || n == 0x2029 || n == 0x202F || n == 0x205F ||
    n == 0x3000

/-- What stripping removes. -/
def isBlank (c : Char) : Bool :=
  isSpace c || (0x1C ≤ c.toNat && c.toNat ≤ 0x1F)

/-- What separates the parts of a command, by the engine that runs the grammar. -/
def isGap (c : Char) : Bool :=
  isSpace c || c.toNat == 0x180E

/-- Removes the blanks at both ends. -/
def stripChars (cs : List Char) : List Char :=
  ((cs.dropWhile isBlank).reverse.dropWhile isBlank).reverse

/-- Removes the blanks at both ends of a text. -/
def strip (s : String) : String :=
  String.ofList (stripChars s.toList)

/-- Removes the blanks at the start of a text. -/
def stripStart (s : String) : String :=
  String.ofList (s.toList.dropWhile isBlank)

theorem isBlank_of_isSpace {c : Char} (h : isSpace c = true) : isBlank c = true := by
  simp [isBlank, h]

@[simp] theorem toList_strip (s : String) : (strip s).toList = stripChars s.toList := by
  simp [strip]

end PipeScript.Text

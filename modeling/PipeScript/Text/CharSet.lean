/-!
# Sets of characters

A set of characters is written down by its boundaries: the ascending code points at which membership
changes, outside first.  A character belongs to the set when an odd number of boundaries lies at or
below it, and a binary search counts them.
-/

namespace PipeScript.Text

/-- A set of characters, given by the ascending code points at which membership changes. -/
structure CharSet where
  bounds : Array Nat

namespace CharSet

/-- Narrows the window `[lo, hi)` of boundaries until it holds none; `fuel` bounds the halvings. -/
def search (bounds : Array Nat) (point : Nat) : (fuel lo hi : Nat) → Nat
  | 0, lo, _ => lo
  | fuel + 1, lo, hi =>
    if lo < hi then
      let middle := (lo + hi) / 2
      if bounds.getD middle 0 ≤ point then search bounds point fuel (middle + 1) hi
      else search bounds point fuel lo middle
    else lo

/-- The number of boundaries at or below a code point. -/
def countBelow (set : CharSet) (point : Nat) : Nat :=
  search set.bounds point set.bounds.size 0 set.bounds.size

def contains (set : CharSet) (c : Char) : Bool :=
  set.countBelow c.toNat % 2 == 1

end CharSet

end PipeScript.Text

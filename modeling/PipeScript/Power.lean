/-!
# Powers

The powers of the two bases in which numbers are held and written.
-/

namespace PipeScript

abbrev twoTo (n : Nat) : Nat := Nat.pow 2 n

abbrev tenTo (n : Nat) : Nat := Nat.pow 10 n

end PipeScript

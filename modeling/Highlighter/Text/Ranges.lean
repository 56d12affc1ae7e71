/-!
# Sets of characters as ranges

A character class is a list of closed ranges of code points. The tables of this library are sorted
and their ranges do not touch, but membership needs neither.
-/

namespace Highlighter

/-- Whether the code point of `c` lies in one of the closed ranges. -/
def inRanges (ranges : List (Nat × Nat)) (c : Char) : Bool :=
  ranges.any fun range => range.1 ≤ c.toNat && c.toNat ≤ range.2

end Highlighter

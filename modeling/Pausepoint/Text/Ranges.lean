/-!
# Classes of characters

A class of characters is a list of closed ranges of code points.
-/

namespace Pausepoint.Text

/-- Is the code point of a character in one of the ranges? -/
def inRanges (ranges : List (Nat × Nat)) (c : Char) : Bool :=
  ranges.any fun range => decide (range.1 ≤ c.toNat) && decide (c.toNat ≤ range.2)

end Pausepoint.Text

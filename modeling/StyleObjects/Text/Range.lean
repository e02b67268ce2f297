/-!
# Ranges of code points

Character properties beyond ASCII are given as lists of closed ranges of code points.
-/

namespace StyleObjects.Text

/-- The code point lies in one of the ranges, whose two ends belong to them. -/
def inRanges (ranges : List (Nat × Nat)) (code : Nat) : Bool :=
  ranges.any fun range => range.1 ≤ code && code ≤ range.2

end StyleObjects.Text

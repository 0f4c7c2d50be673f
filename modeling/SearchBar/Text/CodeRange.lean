/-! # Code-point ranges

Character classes of the Unicode Character Database are kept as lists of closed
ranges of code points.
-/

namespace SearchBar.Text

/-- A character lies in one of the closed ranges. -/
def inRanges (ranges : List (Nat × Nat)) (c : Char) : Bool :=
  ranges.any fun r => decide (r.1 ≤ c.toNat) && decide (c.toNat ≤ r.2)

end SearchBar.Text

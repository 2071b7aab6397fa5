/-!
# Ranges of code points

Sets of characters as lists of ranges, both ends included.

* `inRanges`: whether a character is in one of the ranges.
-/

namespace TetrisMachine.Text

/-- Whether a character is in one of the ranges. -/
def inRanges (rs : List (Nat × Nat)) (c : Char) : Bool :=
  rs.any fun r => r.1 ≤ c.toNat && c.toNat ≤ r.2

end TetrisMachine.Text

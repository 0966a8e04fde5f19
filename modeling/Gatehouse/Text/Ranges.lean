/-!
# Ranges of characters

Classes of characters that are too large to be described in words are tables of closed ranges of
code points.
-/

namespace Gatehouse.Text

/-- Whether a code point lies in one of the ranges. -/
def inRanges (ranges : List (Nat × Nat)) (n : Nat) : Bool :=
  ranges.any fun (lo, hi) => lo ≤ n && n ≤ hi

end Gatehouse.Text

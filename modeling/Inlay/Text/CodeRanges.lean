/-!
# Ranges of code points

A class of characters that a standard lists is kept as a table: ranges of code points,
both ends included, in increasing order and apart from each other.  Membership reads the
table from the left and stops at the first range that lies above the code point.
-/

namespace Inlay.Text

/-- Ranges of code points, both ends included, in increasing order. -/
abbrev CodeRanges := List (Nat × Nat)

/-- Whether some range holds the code point. -/
def CodeRanges.holds : CodeRanges → Nat → Bool
  | [], _ => false
  | (low, high) :: ranges, code =>
    if code < low then false
    else if code ≤ high then true
    else holds ranges code

/-- The ranges stand in increasing order, each of them nonempty, with a gap between them. -/
def CodeRanges.increasing : CodeRanges → Bool
  | [] => true
  | [(low, high)] => low ≤ high
  | (low, high) :: (next, top) :: ranges =>
    low ≤ high && high + 1 < next && increasing ((next, top) :: ranges)

end Inlay.Text

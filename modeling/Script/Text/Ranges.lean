/-!
# Classes of characters

A class of characters is given by the ranges of its code points, in ascending
order.
-/

namespace Script.Text

/-- Whether one of the ranges, which ascend, holds the code point. -/
def inRanges : List (Nat × Nat) → Nat → Bool
  | [], _ => false
  | (first, last) :: ranges, n =>
    if n < first then false
    else if n ≤ last then true
    else inRanges ranges n

end Script.Text

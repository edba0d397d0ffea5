/-!
Sets of characters as sorted lists of disjoint ranges of code points.
-/

namespace Conform

/-- Whether a code point lies in one of the ranges, which are sorted. -/
def inRanges : List (Nat × Nat) → Nat → Bool
  | [], _ => false
  | (low, high) :: rest, n => if n < low then false else if n ≤ high then true else inRanges rest n

end Conform

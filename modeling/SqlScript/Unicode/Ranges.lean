/-!
# Tables of code point ranges

Character classes are tables of ascending, disjoint ranges of code points. `inRanges` looks a code
point up and stops at the first range that lies above it.
-/

namespace SqlScript

/-- Whether a number lies in one of the ascending ranges, both ends included. -/
def inRanges : List (Nat × Nat) → Nat → Bool
  | [], _ => false
  | (low, high) :: rest, n =>
    if n < low then false else if n ≤ high then true else inRanges rest n

end SqlScript

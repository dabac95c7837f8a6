/-!
# Ascending ranges of code points

A property of characters is kept as a list of closed ranges of code points, ascending and apart.
-/

namespace Tabletop.Text

/-- Membership in a list of ascending ranges. The search stops at the first range above `n`. -/
def inRanges : List (Nat × Nat) → Nat → Bool
  | [], _ => false
  | (first, last) :: rest, n =>
      if n < first then false else if n ≤ last then true else inRanges rest n

end Tabletop.Text

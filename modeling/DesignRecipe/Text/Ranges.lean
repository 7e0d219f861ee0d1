/-!
# Classes of characters given by ranges

A property of characters is stored as the ascending list of the ranges of code points
that have it.
-/

namespace DesignRecipe.Text

/-- Membership in an ascending list of closed ranges. The search stops at the first
range that starts beyond the code point. -/
def inRanges : List (Nat × Nat) → Nat → Bool
  | [], _ => false
  | (first, last) :: rest, n => first ≤ n && (n ≤ last || inRanges rest n)

end DesignRecipe.Text

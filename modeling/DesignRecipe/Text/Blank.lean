import DesignRecipe.Text.Ranges

/-!
# Blank characters

The characters with the Unicode property White_Space: the ASCII blanks and line
breaks, the no-break space, the typographic spaces and the two separators. Trimming,
splitting into words and separating values all use this one class.
-/

namespace DesignRecipe.Text

/-- The ranges of the property White_Space, ascending. -/
def blankRanges : List (Nat × Nat) :=
  [(0x09, 0x0D), (0x20, 0x20), (0x85, 0x85), (0xA0, 0xA0), (0x1680, 0x1680),
   (0x2000, 0x200A), (0x2028, 0x2029), (0x202F, 0x202F), (0x205F, 0x205F),
   (0x3000, 0x3000)]

/-- **A blank character**, by the Unicode property White_Space. -/
def isBlank (c : Char) : Bool := inRanges blankRanges c.toNat

end DesignRecipe.Text

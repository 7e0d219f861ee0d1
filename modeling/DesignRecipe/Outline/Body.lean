import DesignRecipe.Decimal.Shortest
import DesignRecipe.Recipe

/-!
# Body outline lines

A body outline is a run of `#` comments. The indentation of a comment tells how deeply
the step is nested: the level is the nearest multiple of the indentation width. The two
are divided as doubles, and the quotient is rounded to a whole number.
-/

namespace DesignRecipe.Outline.Body

/-- The quotient rounded to the nearest number, a tie going to the even one. -/
def roundedQuotient (n d : Nat) : Nat :=
  let q := n / d
  match compare (2 * (n % d)) d with
  | .lt => q
  | .gt => q + 1
  | .eq => if q % 2 = 0 then q else q + 1

/-- The whole number nearest to a double that is finite and not negative, a tie going to the
even one. -/
def nearestWhole (x : Float) : Nat :=
  let m := Decimal.Magnitude.ofBits x.toBits
  roundedQuotient (m.significand * Nat.pow 2 m.exponent.toNat) (Nat.pow 2 (-m.exponent).toNat)

/-- A number of columns as a double. Columns are counted by a machine word, and what is
beyond the largest word counts as that. -/
def columns (n : Nat) : Float := (UInt64.ofNatClamp n).toFloat

/-- The level of a comment behind so many characters. A width of zero counts as one. -/
def level (indentWidth offset : Nat) : Nat :=
  nearestWhole (columns offset / columns (max indentWidth 1))

/-- Whether a line is a comment of the outline. -/
def isEntry (line : Text) : Bool := (Text.trim line).head? = some '#'

/-- The entry that a comment line makes. -/
def entry (indentWidth : Nat) (line : Text) : OutlineEntry :=
  ⟨Text.trim line, level indentWidth (line.takeWhile (· != '#')).length⟩

end DesignRecipe.Outline.Body

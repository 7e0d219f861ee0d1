import DesignRecipe.Text.Basic
import DesignRecipe.Text.WordCharacter

/-!
# Identifiers from natural-language names

A name in prose may have several words, apostrophes and digits in front. Its
identifier has none of the apostrophes, an underscore in place of each other character
that no word has, and an underscore in front unless it starts like an identifier.
-/

namespace DesignRecipe.Text

/-- Whether an identifier may start with the character. -/
def startsIdentifier (c : Char) : Bool := c == '_' || isAlphabetic c

/-- **The identifier made from a name.** -/
def identifier (name : Text) : Text :=
  let kept := name.filter (· != '\'')
  let front : Text := if kept.head?.any startsIdentifier then [] else ['_']
  front ++ kept.map fun c => if isWordCharacter c then c else '_'

end DesignRecipe.Text

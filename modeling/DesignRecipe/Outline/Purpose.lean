import DesignRecipe.Outline.Payload
import DesignRecipe.Text.Identifier

/-!
# Purpose lines

A purpose is a sentence that names the arguments and the result in backticks, in
order. The names become identifiers. Arguments that the sentence does not name get a
name made up from their type.
-/

namespace DesignRecipe.Outline.Purpose

/-- Whether a character may stand inside a name in backticks. -/
def inName (c : Char) : Bool :=
  Text.isWordCharacter c || Text.isBlank c || c == '-' || c == '\''

/-- The names in backticks. After an opening backtick the name is the longest run of
name characters; it counts if it is not empty and a backtick follows it, and then the
search goes on after that one. A backtick that opens no name is passed over. -/
def spansFrom : Text → Option Text → List Text
  | [], _ => []
  | c :: rest, none => if c = '`' then spansFrom rest (some []) else spansFrom rest none
  | c :: rest, some name =>
    if c = '`' then
      if name.isEmpty then spansFrom rest (some [])
      else name.reverse :: spansFrom rest none
    else if inName c then spansFrom rest (some (c :: name))
    else spansFrom rest none

/-- **The names in backticks of a purpose**, in order. -/
def spans (purpose : Text) : List Text := spansFrom purpose none

/-- Hands out names to arguments in order. An argument without one keeps the name it
had, and what is left over comes back. -/
def assign : List (Option Text) → List Text → List (Option Text) × List Text
  | _ :: slots, name :: names =>
    let (slots, rest) := assign slots names
    (some name :: slots, rest)
  | slots, names => (slots, names)

/-- Makes up names for arguments from a position on that have none. -/
def complete : Nat → List (Option Text) → List Text → List (Option Text)
  | position, slot :: slots, tag :: tags =>
    some (slot.getD (Recipe.generatedName tag position)) :: complete (position + 1) slots tags
  | _, slots, _ => slots

/-- **The recipe after a purpose line**: the purpose as written, the names of all
arguments, and the name of the result if the sentence has one. -/
def apply (r : Recipe) (purpose : Text) : Recipe :=
  let (slots, rest) := assign r.argNames ((spans purpose).map Text.identifier)
  { r with
    purpose := some purpose
    argNames := complete 0 slots r.argTypes
    returnName := rest.head? <|> r.returnName }

end DesignRecipe.Outline.Purpose

import DesignRecipe.Diagnostic
import DesignRecipe.Outline.State

/-!
# The payload of a recipe line

A recipe line is a header, a pipe and a payload. Where the pipe is missing the payload
is what follows the header word, and the missing pipe is reported.
-/

namespace DesignRecipe.Outline

/-- The payload of a line, the column where it starts, and what was found wrong with
the line on the way. -/
structure Payload where
  text : Text
  column : Nat
  findings : List Finding
deriving DecidableEq, Repr

namespace Payload

/-- A part of a line that starts at a column, trimmed. -/
def trimmed (findings : List Finding) (column : Nat) (part : Text) : Payload :=
  ⟨Text.trim part, column + Text.leadingBlanks part, findings⟩

/-- The payload of a line without a pipe: what follows the first word, if that starts
with a header, else all of the line. -/
def withoutPipe (line : Text) : Payload :=
  let column := Text.leadingBlanks line
  let findings := [⟨column, .missingPipe⟩]
  let stripped := Text.trim line
  match Heading.labelled.find? fun h => Text.startsIgnoringCase stripped h.label with
  | some h =>
    let after := stripped.drop h.label.length
    let tail := after.takeWhile fun c => !Text.isBlank c
    trimmed findings (column + h.label.length + tail.length) (after.drop tail.length)
  | none => ⟨stripped, column, findings⟩

/-- **The payload of a line**: what follows its first pipe. -/
def ofLine (line : Text) : Payload :=
  match line.dropWhile (· != '|') with
  | [] => withoutPipe line
  | _ :: rest => trimmed [] (line.length - rest.length) rest

end Payload

end DesignRecipe.Outline

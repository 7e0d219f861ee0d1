import DesignRecipe.Outline.Payload
import DesignRecipe.Text.LowerCase

/-!
# In/outs lines

An in/outs line gives the types read from and written to the outside, separated by a
slash, and in a comment the channels used. The types are looked for before the comment
and the channels in it, so that neither part has an influence on the other.
-/

namespace DesignRecipe.Outline.InOuts

/-- The words of a comment that tell of the console. -/
def consoleWords : List Text := ["console", "command", "terminal"]

/-- The words of a comment that tell of files. -/
def fileWords : List Text := ["file", "drive", "disk", "filesystem"]

/-- The channels that a comment tells of. -/
def effectsOf (comment : Text) : List SideEffect :=
  let lowered := Text.lower comment
  (if consoleWords.any (Text.contains lowered) then [.console] else []) ++
  (if fileWords.any (Text.contains lowered) then [.file] else [])

/-- The type on one side of the slash, in its recognized spelling. `None` in any case
is no type, and nothing else is accepted. -/
def sideOf (recognized : List Text) (channel : Channel) (column : Nat) (side : Text) :
    Option Text × List Finding :=
  let tag := Text.trim side
  match recognized.find? fun known => Text.equalsIgnoringCase known tag with
  | some known => (some known, [])
  | none =>
    if Text.equalsIgnoringCase tag ['N', 'o', 'n', 'e'] then (none, [])
    else
      (none, [⟨column + Text.leadingBlanks side, .unrecognizedType channel (Text.lower tag)⟩])

/-- The types that a part of a line gives, which starts at a column. -/
def channelsOf (recognized : List Text) (column : Nat) (types : Text) :
    Option Text × Option Text × List Finding :=
  let before := types.takeWhile (· != '/')
  match types.dropWhile (· != '/') with
  | [] => (none, none, [⟨column + (Text.trimRight types).length, .missingSlash⟩])
  | _ :: after =>
    let (inputs, found) := sideOf recognized .input column before
    let (outputs, more) := sideOf recognized .output (column + before.length + 1) after
    (inputs, outputs, found ++ more)

/-- **The recipe after an in/outs line**, and what was found wrong with the line. -/
def apply (recognized : List Text) (r : Recipe) (payload : Payload) : Recipe × List Finding :=
  let types := payload.text.takeWhile (· != '#')
  let comment := payload.text.dropWhile (· != '#')
  let (inputs, outputs, findings) := channelsOf recognized payload.column types
  ({ r with
      inputs := inputs
      outputs := outputs
      sideEffects := r.sideEffects ++ effectsOf comment },
    findings)

end DesignRecipe.Outline.InOuts

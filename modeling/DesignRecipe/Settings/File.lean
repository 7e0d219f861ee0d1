import DesignRecipe.Settings.Basic
import DesignRecipe.Toml.Reader
import DesignRecipe.Toml.Writer

/-!
# Settings files

The text of settings, and the settings that a text gives. What a file does not mention
keeps its standard value, what nobody knows is passed over, and a value of another type
than asked for makes the file malformed. A part of the settings may also be given as an
array of its values in order.
-/

namespace DesignRecipe.Settings

/-! ### Writing -/

/-- The largest number that a settings file can hold. -/
def largestNumber : Nat := 0x7FFFFFFFFFFFFFFF

/-- **The text of settings**, unless it would have a number that is too large. -/
def toText (s : Settings) : Except Failure Text :=
  if largestNumber < s.options.indentWidth then .error .unwritableSettings
  else
    .ok (
      Toml.writeHeader "parser" ++
      Toml.writePair "recognized_types" (Toml.writeStrings s.options.recognizedTypes) ++
      Toml.writePair "indent_size" (Text.ofNat s.options.indentWidth) ++ "\n" ++
      Toml.writeHeader "template" ++
      Toml.writePair "project" (Toml.writeString s.template.project) ++
      Toml.writePair "student" (Toml.writeString s.template.student) ++
      Toml.writePair "instructor" (Toml.writeString s.template.instructor) ++
      Toml.writePair "section" (Toml.writeString s.template.section) ++
      Toml.writePair "imports" (Toml.writeStrings s.template.imports) ++ "\n" ++
      Toml.writeHeader "output" ++
      Toml.writePair "backend" (Toml.writeString s.backend))

/-! ### Values of the types asked for -/

/-- The text of a string. -/
def textValue? : Toml → Option Text
  | .string s => some s
  | _ => none

/-- The number that is a nonnegative integer. -/
def numberValue? : Toml → Option Nat
  | .integer i => if 0 ≤ i then some i.toNat else none
  | _ => none

/-- The texts of strings. -/
def textValues? : List Toml → Option (List Text)
  | [] => some []
  | v :: rest => do return (← textValue? v) :: (← textValues? rest)

/-- The texts of an array of strings. -/
def textsValue? : Toml → Option (List Text)
  | .array items => textValues? items
  | _ => none

/-- The values of a part of the settings by their keys. An array gives them in order. -/
def entries? (keys : List Text) : Toml → Option Toml.Entries
  | .table _ entries => some entries
  | .array items => some (keys.zip items)
  | .tables items => some (keys.zip (items.map (Toml.table .header)))
  | .moment => some []
  | _ => none

/-- The value of a key, if it is given, and the standard value otherwise. -/
def valueOr {α : Type} (standard : α) (value? : Toml → Option α) (key : Text)
    (entries : Toml.Entries) : Option α :=
  match Toml.get? key entries with
  | none => some standard
  | some v => value? v

/-! ### The parts -/

/-- How outlines are read. -/
def optionsValue? (v : Toml) : Option Outline.Options := do
  let entries ← entries? ["recognized_types".toList, "indent_size".toList] v
  let standard := Outline.Options.standard
  return {
    recognizedTypes := ← valueOr standard.recognizedTypes textsValue? "recognized_types" entries
    indentWidth := ← valueOr standard.indentWidth numberValue? "indent_size" entries }

/-- What stands at the top of a stub. -/
def templateValue? (v : Toml) : Option Template := do
  let entries ← entries? ["project".toList, "student".toList, "instructor".toList,
    "section".toList, "imports".toList] v
  let standard := Template.standard
  return {
    project := ← valueOr standard.project textValue? "project" entries
    student := ← valueOr standard.student textValue? "student" entries
    instructor := ← valueOr standard.instructor textValue? "instructor" entries
    «section» := ← valueOr standard.section textValue? "section" entries
    imports := ← valueOr standard.imports textsValue? "imports" entries }

/-- The name of the backend. -/
def backendValue? (v : Toml) : Option Text := do
  valueOr standard.backend textValue? "backend" (← entries? ["backend".toList] v)

/-- The settings that a document gives. -/
def ofDocument? (document : Toml.Entries) : Option Settings := do
  return {
    options := ← valueOr standard.options optionsValue? "parser" document
    template := ← valueOr standard.template templateValue? "template" document
    backend := ← valueOr standard.backend backendValue? "output" document }

/-- **The settings that a text gives**, if it is well-formed and something can be done
with them. -/
def ofText (text : Text) : Except Failure Settings :=
  match (Toml.read text).bind ofDocument? with
  | none => .error .malformedSettings
  | some s => s.validate.map fun _ => s

end DesignRecipe.Settings

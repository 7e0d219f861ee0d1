import DesignRecipe.Json.Basic
import DesignRecipe.Diagnostic

/-!
# Records as JSON

The JSON form of values, diagnostics and recipes, field by field.
-/

namespace DesignRecipe

namespace Json

/-- A text, or `null` if there is none. -/
def optional : Option Text → Json
  | none => .null
  | some s => .string s

/-- An array of texts. -/
def strings (items : List Text) : Json := .array (items.map .string)

/-- A value with the name of its kind. -/
def tagged (kind : Text) (value : Json) : Json :=
  .object [("kind", .string kind), ("value", value)]

mutual

/-- **A value of an example.** -/
def ofValue : Value → Json
  | .none => .object [("kind", .string "none")]
  | .bool b => tagged "bool" (.bool b)
  | .int i => tagged "int" (.integer i.toInt)
  | .bigInt digits => tagged "big_int" (.string digits)
  | .float x => tagged "float" (.real x)
  | .complex re im => tagged "complex" (.object [("re", .real re), ("im", .real im)])
  | .str s => tagged "str" (.string s)
  | .list items => tagged "list" (.array (ofValues items))
  | .tuple items => tagged "tuple" (.array (ofValues items))
  | .dict entries => tagged "dict" (.array (ofEntries entries))

/-- The elements of a container. -/
def ofValues : List Value → List Json
  | [] => []
  | item :: rest => ofValue item :: ofValues rest

/-- The entries of a dictionary, as pairs. -/
def ofEntries : List (Value × Value) → List Json
  | [] => []
  | (key, value) :: rest => .array [ofValue key, ofValue value] :: ofEntries rest

end

/-- **A diagnostic.** -/
def ofDiagnostic (d : Diagnostic) : Json :=
  .object
    [("severity", .string d.severity.name),
     ("line", .integer d.line),
     ("column", .integer d.column),
     ("message", .string d.message),
     ("source", .string d.source)]

/-- The name of a side effect. -/
def ofSideEffect : SideEffect → Json
  | .console => .string "console"
  | .file => .string "file"

/-- A worked example. -/
def ofExample (e : Example) : Json :=
  .object
    [("args", .array (ofValues e.args)),
     ("expected", ofValue e.expected),
     ("explanation", optional e.explanation)]

/-- A comment of a body outline. -/
def ofOutlineEntry (e : OutlineEntry) : Json :=
  .object [("text", .string e.text), ("level", .integer e.level)]

/-- **A recipe.** -/
def ofRecipe (r : Recipe) : Json :=
  .object
    [("name", .string r.name),
     ("arg_types", strings r.argTypes),
     ("return_type", .string r.returnType),
     ("purpose", optional r.purpose),
     ("arg_names", .array (r.argNames.map optional)),
     ("return_name", optional r.returnName),
     ("recipe_lines", strings r.lines),
     ("inputs", optional r.inputs),
     ("outputs", optional r.outputs),
     ("side_effects", .array (r.sideEffects.map ofSideEffect)),
     ("examples", .array (r.examples.map ofExample)),
     ("outline", .array (r.outline.map ofOutlineEntry))]

end Json

end DesignRecipe

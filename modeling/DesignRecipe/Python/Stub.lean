import DesignRecipe.Recipe

/-!
# Stubs

The source file that a programmer fills in: a header, the imports, and for each
function its definition with the recipe as its documentation, a placeholder for the
body, and the outline of the body as comments.
-/

namespace DesignRecipe

/-- The texts at the top of every stub. -/
structure Template where
  project : Text
  student : Text
  instructor : Text
  «section» : Text
  /-- The import lines, which follow the header. -/
  imports : List Text
deriving DecidableEq, Repr

/-- Blanks to be filled in, and one import. -/
def Template.standard : Template where
  project := "_"
  student := "_"
  instructor := "_"
  «section» := "__"
  imports := ["from math import sqrt"]

namespace Python

/-- The indentation of so many levels. -/
def indent (levels : Nat) : Text := Text.spaces (4 * levels)

/-- A line at a level. -/
def lineAt (levels : Nat) (s : Text) : Text := indent levels ++ s ++ "\n"

/-- The delimiter of a documentation string. -/
def docQuote : Text := ['"', '"', '"']

/-- What stands in for a body that is not written yet. -/
def placeholder : Text :=
  "pass    # delete \"pass\" once you have real code for this function!"

/-- The header of a stub and its imports. -/
def header (t : Template) : Text :=
  docQuote ++ "\nProject " ++ t.project ++ "\n\nName: " ++ t.student ++ "\nInstructor: " ++
    t.instructor ++ "\nSection: " ++ t.section ++ "\n" ++ docQuote ++ "\n\n" ++
  t.imports.flatMap (lineAt 0) ++
  (if t.imports.isEmpty then [] else ['\n'])

/-- A comment of the body outline, one level deeper than its own level says. -/
def outlineComment (e : OutlineEntry) : Text := lineAt (e.level + 1) e.text ++ "\n"

/-- The definition of one function. -/
def definition (r : Recipe) : Text :=
  "def " ++ r.name ++ "(" ++ Text.join ", " r.parameters ++ "):\n" ++
  lineAt 1 docQuote ++ r.lines.flatMap (lineAt 1) ++ lineAt 1 docQuote ++
  lineAt 1 placeholder ++ "\n" ++
  r.outline.flatMap outlineComment ++ "\n"

/-- **The stub of functions**, in order. -/
def stub (t : Template) (rs : List Recipe) : Text := header t ++ rs.flatMap definition

end Python

end DesignRecipe

import DesignRecipe.Json.Encoding

/-!
# Reports

What is shown about an outline that was read: its diagnostics, each with the line it is
about and a caret under the column, and a summary of its functions. Both are written
as text, coloured or not, or as JSON.
-/

namespace DesignRecipe

/-- The formats of a report. -/
inductive Format
  | text
  | json
  | jsonPretty
deriving DecidableEq, Repr

namespace Report

/-! ### Styles -/

/-- The ways in which a part of a report is set off. -/
inductive Style
  | bold
  | boldRed
  | yellow
  | green
  | cyan
  | dimmed
deriving DecidableEq, Repr

/-- The number that selects a style on a terminal. -/
def Style.code : Style → Text
  | .bold => "1"
  | .boldRed => "1;31"
  | .yellow => "33"
  | .green => "32"
  | .cyan => "36"
  | .dimmed => "2"

/-- What starts a style on a terminal. -/
def Style.opening (style : Style) : Text := ['\x1b', '['] ++ style.code ++ ['m']

/-- What ends every style on a terminal. -/
def reset : Text := ['\x1b', '[', '0', 'm']

/-- A text in which the style starts anew wherever the text ends a style itself. -/
def reopen (opening : Text) : Text → Text
  | '\x1b' :: '[' :: '0' :: 'm' :: rest => reset ++ opening ++ reopen opening rest
  | c :: rest => c :: reopen opening rest
  | [] => []

/-- **A text set in a style**, if colours are on. -/
def paint (colored : Bool) (style : Style) (s : Text) : Text :=
  if colored then style.opening ++ reopen style.opening s ++ reset else s

/-! ### Diagnostics -/

/-- The mark of a severity. -/
def severityMark (colored : Bool) : Severity → Text
  | .critical => paint colored .boldRed "CRITICAL :("
  | .ignorable => paint colored .yellow "(ignorable)"

/-- **One diagnostic**: what it says, the line it is about, and a caret under the
column. -/
def diagnostic (colored : Bool) (d : Diagnostic) : Text :=
  let (excerpt, column) := d.excerpt Diagnostic.excerptWidth
  paint colored .bold "PARSE ERROR" ++ " | At line " ++ Text.ofNat d.line ++ " -- " ++
    d.message ++ "\n" ++
  severityMark colored d.severity ++ " | " ++ excerpt ++ "\n" ++
  Text.spaces 11 ++ " | " ++ Text.spaces column ++ "^\n"

/-- A list of JSON values in a format other than text. -/
def structured (pretty : Bool) (items : List Json) : Text :=
  if pretty then (Json.array items).pretty else (Json.array items).compact

/-- **The diagnostics of the outline at a path.** As text nothing at all is shown if
there are none. -/
def diagnostics (colored : Bool) (path : Text) (ds : List Diagnostic) : Format → Text
  | .json => structured false (ds.map Json.ofDiagnostic)
  | .jsonPretty => structured true (ds.map Json.ofDiagnostic)
  | .text =>
    if ds.isEmpty then []
    else paint colored .bold path ++ "\n" ++ ds.flatMap (diagnostic colored)

/-! ### Functions -/

/-- The line that tells what a recipe lacks, if it lacks anything. -/
def gapLine (colored : Bool) (r : Recipe) : Text :=
  if r.isComplete then []
  else
    Text.spaces 6 ++ paint colored .dimmed "missing:" ++ " " ++
      Text.join ", " (r.gaps.map Gap.name) ++ "\n"

/-- The summary of one function. -/
def function (colored : Bool) (r : Recipe) : Text :=
  let status :=
    if r.isComplete then paint colored .green "complete"
    else paint colored .yellow "incomplete"
  Text.spaces 4 ++ paint colored .cyan r.name ++ "(" ++ Text.join ", " r.parameters ++ ") -> " ++
    r.returnType ++ " [" ++ status ++ "]\n" ++
  "      examples: " ++ Text.ofNat r.examples.length ++ ", outline steps: " ++
    Text.ofNat r.outline.length ++ "\n" ++
  gapLine colored r

/-- **The functions of the outline at a path.** -/
def functions (colored : Bool) (path : Text) (rs : List Recipe) : Format → Text
  | .json => structured false (rs.map Json.ofRecipe)
  | .jsonPretty => structured true (rs.map Json.ofRecipe)
  | .text =>
    paint colored .bold path ++ "\n" ++
    "  Functions (" ++ Text.ofNat rs.length ++ "):\n" ++ rs.flatMap (function colored)

end Report

end DesignRecipe

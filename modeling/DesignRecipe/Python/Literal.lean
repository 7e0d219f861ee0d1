import DesignRecipe.Value.Basic
import DesignRecipe.Decimal.Layout

/-!
# Writing literals

The literal that denotes a value in a generated test. Strings prefer single quotes and
change to double ones only where that saves escapes; numbers have the fewest digits
that identify them.
-/

namespace DesignRecipe.Python

/-! ### Strings -/

/-- The quote that a string is written with: double if it holds a single quote and no
double one, else single. -/
def quoteFor (s : Text) : Char :=
  if '\'' ∈ s ∧ '"' ∉ s then '"' else '\''

/-- One character inside a string written with a quote. -/
def escape (quote : Char) (c : Char) : Text :=
  if c = '\\' then ['\\', '\\']
  else if c = '\n' then ['\\', 'n']
  else if c = '\t' then ['\\', 't']
  else if c = '\r' then ['\\', 'r']
  else if c = quote then ['\\', c]
  else [c]

/-- **A string literal.** -/
def writeString (s : Text) : Text :=
  let quote := quoteFor s
  quote :: s.flatMap (escape quote) ++ [quote]

/-! ### Numbers -/

/-- Doubles are written with a point from 0.0001 up to but excluding 10^16, otherwise
with a signed exponent of at least two digits. Of two equally near shortest decimals
the larger is written. -/
def floatLayout : Decimal.Layout where
  plainFrom := -4
  plainBelow := 16
  exponentWidth := 2
  tie := .up

/-- **A double literal.** Infinities and not-a-number are calls of `float`. -/
def writeFloat (x : Float) : Text :=
  if x.isNaN then "float('nan')"
  else if x.isInf then
    if 0 < x then "float('inf')" else "-float('inf')"
  else Decimal.writeFinite floatLayout x

/-! ### Values -/

mutual

/-- **The literal of a value.** -/
def writeLiteral : Value → Text
  | .none => "None"
  | .bool b => if b then "True" else "False"
  | .int i => Text.ofInt i.toInt
  | .bigInt digits => digits
  | .float x => writeFloat x
  | .complex re im => "complex(" ++ writeFloat re ++ ", " ++ writeFloat im ++ ")"
  | .str s => writeString s
  | .list items => ['['] ++ Text.join ", " (writeLiterals items) ++ [']']
  | .tuple [item] => ['('] ++ writeLiteral item ++ [',', ')']
  | .tuple items => ['('] ++ Text.join ", " (writeLiterals items) ++ [')']
  | .dict entries => ['{'] ++ Text.join ", " (writeEntries entries) ++ ['}']

/-- The literals of values, one by one. -/
def writeLiterals : List Value → List Text
  | [] => []
  | item :: rest => writeLiteral item :: writeLiterals rest

/-- The entries of a dictionary, one by one. -/
def writeEntries : List (Value × Value) → List Text
  | [] => []
  | (key, value) :: rest =>
    (writeLiteral key ++ ": " ++ writeLiteral value) :: writeEntries rest

end

end DesignRecipe.Python

import DesignRecipe.Value.Basic
import DesignRecipe.Decimal.Reading

/-!
# Integers of any width

A text of decimal digits with an optional sign denotes an integer however long it is.
Its canonical text has no plus sign, no leading zero and no negative zero, so that two
texts denote the same integer exactly if their canonical texts are equal. An integer
of at most 64 bits becomes a number, a wider one keeps its canonical text.
-/

namespace DesignRecipe.Integer

/-- Takes one leading sign off a text: whether it is a minus, and the rest. -/
def splitSign : Text → Bool × Text
  | '-' :: rest => (true, rest)
  | '+' :: rest => (false, rest)
  | s => (false, s)

/-- **The canonical text of the integer that a text denotes**, if it denotes one. -/
def canonical? (s : Text) : Option Text :=
  let (negative, digits) := splitSign s
  if digits.isEmpty || !digits.all Char.isDigit then none
  else
    match digits.dropWhile (· == '0') with
    | [] => some ['0']
    | significant => some (if negative then '-' :: significant else significant)

/-- The integer that a signed text of digits denotes. -/
def valueOf (s : Text) : Int :=
  let (negative, digits) := splitSign s
  let size : Int := Decimal.digitsValue digits
  if negative then -size else size

/-- Whether an integer has at most 64 bits. -/
def isNarrow (i : Int) : Bool := Int64.minValue.toInt ≤ i && i ≤ Int64.maxValue.toInt

/-- The value of an integer given by its canonical text. -/
def ofCanonical (digits : Text) : Value :=
  let i := valueOf digits
  if isNarrow i then .int (Int64.ofInt i) else .bigInt digits

/-- **Reads an integer of any width**, or rejects the text. -/
def read? (s : Text) : Option Value := (canonical? s).map ofCanonical

end DesignRecipe.Integer

import DesignRecipe.Decimal.Layout

/-!
# JSON text

JSON values and their text, on one line or indented. Objects keep the order of their
fields. Characters are written as they are but for quotes, backslashes and control
characters; doubles have the fewest digits that identify them, and those that are no
numbers are written `null`.
-/

namespace DesignRecipe

/-- A JSON value. -/
inductive Json
  | null
  | bool (b : Bool)
  | integer (i : Int)
  | real (x : Float)
  | string (s : Text)
  | array (items : List Json)
  | object (fields : List (Text × Json))

namespace Json

/-! ### Scalars -/

/-- One hexadecimal digit. -/
def hexDigit (n : Nat) : Char := Nat.digitChar (n % 16)

/-- One character inside a string. -/
def escape (c : Char) : Text :=
  if c = '"' then ['\\', '"']
  else if c = '\\' then ['\\', '\\']
  else if c = '\n' then ['\\', 'n']
  else if c = '\r' then ['\\', 'r']
  else if c = '\t' then ['\\', 't']
  else if c = '\x08' then ['\\', 'b']
  else if c = '\x0c' then ['\\', 'f']
  else if c.toNat < 0x20 then ['\\', 'u', '0', '0', hexDigit (c.toNat / 16), hexDigit c.toNat]
  else [c]

/-- A string in quotes. -/
def writeString (s : Text) : Text := ['"'] ++ s.flatMap escape ++ ['"']

/-- Doubles are written with a point from 0.00001 up to but excluding 10^16, otherwise
with a signed exponent. Of two equally near shortest decimals the even one is
written. -/
def realLayout : Decimal.Layout where
  plainFrom := -5
  plainBelow := 16
  exponentWidth := 1
  tie := .even

/-- A double, or `null` if it is no number. -/
def writeReal (x : Float) : Text :=
  if x.isFinite then Decimal.writeFinite realLayout x else "null"

/-! ### On one line -/

mutual

/-- **The text of a value on one line.** -/
def compact : Json → Text
  | .null => "null"
  | .bool b => if b then "true" else "false"
  | .integer i => Text.ofInt i
  | .real x => writeReal x
  | .string s => writeString s
  | .array items => ['['] ++ Text.join [','] (compactItems items) ++ [']']
  | .object fields => ['\x7b'] ++ Text.join [','] (compactFields fields) ++ ['\x7d']

/-- The texts of the elements of an array. -/
def compactItems : List Json → List Text
  | [] => []
  | item :: rest => item.compact :: compactItems rest

/-- The texts of the fields of an object. -/
def compactFields : List (Text × Json) → List Text
  | [] => []
  | (key, value) :: rest => (writeString key ++ [':'] ++ value.compact) :: compactFields rest

end

/-! ### Indented -/

/-- The start of a line at a depth, two columns each. -/
def newLine (depth : Nat) : Text := '\n' :: Text.spaces (2 * depth)

/-- Parts on lines of their own, one level deeper than the brackets around them.
Nothing stands between the brackets if there are no parts. -/
def block (opener closer : Char) (depth : Nat) (parts : List Text) : Text :=
  if parts.isEmpty then [opener, closer]
  else
    [opener] ++ newLine (depth + 1) ++ Text.join ([','] ++ newLine (depth + 1)) parts ++
      newLine depth ++ [closer]

mutual

/-- The text of a value whose first line starts at a depth. -/
def prettyAt : Nat → Json → Text
  | _, .null => "null"
  | _, .bool b => if b then "true" else "false"
  | _, .integer i => Text.ofInt i
  | _, .real x => writeReal x
  | _, .string s => writeString s
  | depth, .array items => block '[' ']' depth (prettyItems (depth + 1) items)
  | depth, .object fields => block '\x7b' '\x7d' depth (prettyFields (depth + 1) fields)

/-- The texts of the elements of an array at a depth. -/
def prettyItems : Nat → List Json → List Text
  | _, [] => []
  | depth, item :: rest => prettyAt depth item :: prettyItems depth rest

/-- The texts of the fields of an object at a depth. -/
def prettyFields : Nat → List (Text × Json) → List Text
  | _, [] => []
  | depth, (key, value) :: rest =>
    (writeString key ++ ": " ++ prettyAt depth value) :: prettyFields depth rest

end

/-- **The text of a value, indented by two columns a level.** -/
def pretty (j : Json) : Text := prettyAt 0 j

end Json

end DesignRecipe

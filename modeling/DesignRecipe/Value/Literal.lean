import DesignRecipe.Value.Integer
import DesignRecipe.Text.WordCharacter

/-!
# Reading literals

A literal is one of the words `None`, `True` and `False`, a number, a quoted string, or
a list, tuple or dictionary of literals. Blanks may stand around every part, and a
trailing comma is allowed in every container. A parenthesised literal without a
trailing comma is that literal, with one it is a tuple of one element.

Every reader takes the text still to be read and returns what follows its literal.
Containers are read with fuel. Each step of the readers below uses up a character of
the text or hands over to a step that does, so twice the length of the text is enough.
-/

namespace DesignRecipe.Literal

/-! ### Strings -/

/-- The character that a backslash and a character stand for. -/
def unescape : Char → Char
  | 'n' => '\n'
  | 't' => '\t'
  | 'r' => '\r'
  | '0' => '\x00'
  | c => c

/-- Reads the body of a string up to its closing quote. -/
def readString (quote : Char) : Text → Option (Text × Text)
  | [] => none
  | [c] => if c = quote then some ([], []) else none
  | c :: d :: rest =>
    if c = quote then some ([], d :: rest)
    else if c = '\\' then
      (readString quote rest).map fun (body, rest) => (unescape d :: body, rest)
    else (readString quote (d :: rest)).map fun (body, rest) => (c :: body, rest)

/-! ### Numbers and words -/

/-- Whether a number goes on with `c` after `previous`: a sign belongs to it only right
after the letter of an exponent. -/
def continuesNumber (previous c : Char) : Bool :=
  c.isAlphanum || c == '.' || c == '_' ||
    ((c == '+' || c == '-') && (previous == 'e' || previous == 'E'))

/-- Splits a text after the number that it goes on with. -/
def splitNumber : Char → Text → Text × Text
  | _, [] => ([], [])
  | previous, c :: rest =>
    if continuesNumber previous c then
      let (more, rest) := splitNumber c rest
      (c :: more, rest)
    else ([], c :: rest)

/-- The value of a number written with underscores anywhere: an integer of any width,
or a double that has a digit. -/
def numberValue? (written : Text) : Option Value :=
  let text := written.filter (· != '_')
  match Integer.read? text with
  | some value => some value
  | none => if text.any Char.isDigit then (Decimal.read text).map .float else none

/-- Whether a number may start with the character. -/
def startsNumber (c : Char) : Bool := c.isDigit || c == '-' || c == '+' || c == '.'

/-- Reads a number whose first character is `c`. -/
def readNumber (c : Char) (rest : Text) : Option (Value × Text) :=
  let (more, rest) := splitNumber c rest
  (numberValue? (c :: more)).map (·, rest)

/-- The value of a word. -/
def wordValue? (word : Text) : Option Value :=
  if word = ['N', 'o', 'n', 'e'] then some .none
  else if word = ['T', 'r', 'u', 'e'] then some (.bool true)
  else if word = ['F', 'a', 'l', 's', 'e'] then some (.bool false)
  else none

/-- Whether a character belongs to a word. -/
def inWord (c : Char) : Bool := Text.isAlphanumeric c || c == '_'

/-- Reads a word. -/
def readWord (s : Text) : Option (Value × Text) :=
  (wordValue? (s.takeWhile inWord)).map (·, s.dropWhile inWord)

/-- Reads a literal that is no container and starts with `c`. -/
def readScalar (c : Char) (rest : Text) : Option (Value × Text) :=
  if c = '"' ∨ c = '\'' then
    (readString c rest).map fun (body, rest) => (.str body, rest)
  else if startsNumber c then readNumber c rest
  else if Text.isAlphabetic c then readWord (c :: rest)
  else none

/-! ### Containers -/

/-- What parentheses stand for: a single literal without a trailing comma is that
literal, everything else is a tuple. -/
def parenthesised : List Value → Bool → Value
  | [item], false => item
  | items, _ => .tuple items

mutual

/-- Reads one literal, blanks before it included. -/
def readValue : Nat → Text → Option (Value × Text)
  | 0, _ => none
  | fuel + 1, s =>
    match Text.trimLeft s with
    | [] => none
    | c :: rest =>
      if c = '[' then
        (readItems fuel ']' rest).map fun (items, _, rest) => (.list items, rest)
      else if c = '(' then
        (readItems fuel ')' rest).map fun (items, comma, rest) =>
          (parenthesised items comma, rest)
      else if c = '{' then
        (readEntries fuel rest).map fun (entries, rest) => (.dict entries, rest)
      else readScalar c rest

/-- Reads literals separated by commas up to the closing bracket. The flag tells
whether the last one is followed by a comma. -/
def readItems : Nat → Char → Text → Option (List Value × Bool × Text)
  | 0, _, _ => none
  | fuel + 1, close, s =>
    match Text.trimLeft s with
    | [] => none
    | c :: rest =>
      if c = close then some ([], false, rest)
      else
        match readValue fuel (c :: rest) with
        | none => none
        | some (item, rest) =>
          match Text.trimLeft rest with
          | [] => none
          | d :: rest =>
            if d = ',' then
              (readItems fuel close rest).map fun (items, comma, rest) =>
                (item :: items, comma || items.isEmpty, rest)
            else if d = close then some ([item], false, rest)
            else none

/-- Reads the entries of a dictionary, each a key, a colon and a value, up to its
closing bracket. -/
def readEntries : Nat → Text → Option (List (Value × Value) × Text)
  | 0, _ => none
  | fuel + 1, s =>
    match Text.trimLeft s with
    | [] => none
    | c :: rest =>
      if c = '}' then some ([], rest)
      else
        match readValue fuel (c :: rest) with
        | none => none
        | some (key, rest) =>
          match Text.trimLeft rest with
          | [] => none
          | d :: rest =>
            if d ≠ ':' then none
            else
              match readValue fuel rest with
              | none => none
              | some (value, rest) =>
                match Text.trimLeft rest with
                | [] => none
                | e :: rest =>
                  if e = ',' then
                    (readEntries fuel rest).map fun (entries, rest) =>
                      ((key, value) :: entries, rest)
                  else if e = '}' then some ([(key, value)], rest)
                  else none

end

/-- Fuel enough to read any literal of the text. -/
def fuelFor (s : Text) : Nat := 2 * s.length + 2

/-- **Reads a text that is one literal**, blanks around it aside. -/
def read? (s : Text) : Option Value :=
  match readValue (fuelFor s) s with
  | some (value, rest) => if (Text.trimLeft rest).isEmpty then some value else none
  | none => none

end DesignRecipe.Literal

import DesignRecipe.Text.Basic

/-!
# Settings files: writing

A string is written in the first of four forms that needs no escapes: in double quotes,
in single quotes, and in three double or three single quotes over several lines. Where
none will do it is written in double quotes with escapes. An array with more than one
item has a line for each.
-/

namespace DesignRecipe.Toml

/-- A character that stands in no string as it is. The tab and the line feed do in
some. -/
def isControl (c : Char) : Bool :=
  (c.toNat < 0x20 && c != '\t' && c != '\n') || c.toNat == 0x7F

/-- Two hexadecimal digits in upper case. -/
def hexPair (n : Nat) : Text :=
  [(Nat.digitChar (n / 16 % 16)).toUpper, (Nat.digitChar (n % 16)).toUpper]

/-- A character other than a double quote between double quotes. In a string of
several lines a line feed stands for itself. -/
def escapeChar (severalLines : Bool) (c : Char) : Text :=
  if c = '\\' then ['\\', '\\']
  else if c = '\t' then ['\\', 't']
  else if c = '\x08' then ['\\', 'b']
  else if c = '\x0c' then ['\\', 'f']
  else if c = '\r' then ['\\', 'r']
  else if c = '\n' then if severalLines then ['\n'] else ['\\', 'n']
  else if isControl c then ['\\', 'u', '0', '0'] ++ hexPair c.toNat
  else [c]

/-- How many double quotes may stand together without an escape. -/
def quoteRoom (severalLines : Bool) : Nat := if severalLines then 2 else 0

/-- A text between double quotes, of which so many may stand at its front without an
escape. -/
def escape (severalLines : Bool) : Nat → Text → Text
  | _, [] => []
  | room, c :: rest =>
    if c = '"' then
      match room with
      | 0 => ['\\', '"'] ++ escape severalLines (quoteRoom severalLines) rest
      | room + 1 => '"' :: escape severalLines room rest
    else escapeChar severalLines c ++ escape severalLines (quoteRoom severalLines) rest

/-- Three times a quote. -/
def tripled (quote : Char) : Text := [quote, quote, quote]

/-- A text between two triples of a quote. If it has several lines they start on a line
of their own. -/
def inTriples (quote : Char) (s body : Text) : Text :=
  let lineBreak : Text := if '\n' ∈ s then ['\n'] else []
  tripled quote ++ lineBreak ++ body ++ tripled quote

/-- A text in double quotes on one line. -/
def inQuotes (s : Text) : Text := ['"'] ++ escape false (quoteRoom false) s ++ ['"']

/-- A text in double quotes on several lines. -/
def inTripleQuotes (s : Text) : Text := inTriples '"' s (escape true (quoteRoom true) s)

/-- **Writes a string** in the first form that fits it. -/
def writeString (s : Text) : Text :=
  if s.any isControl then if '\n' ∈ s then inTripleQuotes s else inQuotes s
  else if '\n' ∉ s ∧ '"' ∉ s ∧ '\\' ∉ s then inQuotes s
  else if '\n' ∉ s ∧ '\'' ∉ s then ['\''] ++ s ++ ['\'']
  else if '\\' ∉ s ∧ !Text.contains s (tripled '"') then inTripleQuotes s
  else if !Text.contains s (tripled '\'') then inTriples '\'' s s
  else if '\n' ∈ s then inTripleQuotes s
  else inQuotes s

/-- **Writes an array of strings.** -/
def writeStrings : List Text → Text
  | [] => ['[', ']']
  | [s] => ['['] ++ writeString s ++ [']']
  | items =>
    ['[', '\n'] ++ (items.flatMap fun s => Text.spaces 4 ++ writeString s ++ [',', '\n']) ++ [']']

/-- A header on its line. -/
def writeHeader (name : Text) : Text := ['['] ++ name ++ [']', '\n']

/-- A key and the text of its value on their line. -/
def writePair (key value : Text) : Text := key ++ [' ', '=', ' '] ++ value ++ ['\n']

end DesignRecipe.Toml

import DesignRecipe.Value.Integer
import DesignRecipe.Toml.Value

/-!
# Settings files: scalars

Readers of strings, numbers, truth values, dates and times. Each takes the text still to
be read and returns what follows what it has read; a text that is malformed has no
reading.
-/

namespace DesignRecipe.Toml

/-! ### Blanks, line ends and comments -/

/-- A blank within a line. -/
def isSpace (c : Char) : Bool := c == ' ' || c == '\t'

/-- Drops blanks within a line. -/
def skipSpaces (s : Text) : Text := s.dropWhile isSpace

/-- A character that may stand in a line: no control character but the tab. -/
def isLineCharacter (c : Char) : Bool := c == '\t' || (0x20 ≤ c.toNat && c.toNat != 0x7F)

/-- Reads a line feed, or a carriage return and a line feed. -/
def readNewline : Text → Option Text
  | '\n' :: rest => some rest
  | '\r' :: '\n' :: rest => some rest
  | _ => none

/-- Drops a comment, if there is one, up to the end of its line. -/
def skipComment : Text → Text
  | '#' :: rest => rest.dropWhile isLineCharacter
  | s => s

/-- Reads the rest of a line: blanks, a comment or not, and the line end or the end of
the text. -/
def readLineEnd (s : Text) : Option Text :=
  match skipComment (skipSpaces s) with
  | [] => some []
  | rest => readNewline rest

/-! ### Strings -/

/-- The value of a hexadecimal digit. -/
def hexValue? (c : Char) : Option Nat :=
  if c.isDigit then some (c.toNat - 48)
  else if 'a' ≤ c ∧ c ≤ 'f' then some (c.toNat - 87)
  else if 'A' ≤ c ∧ c ≤ 'F' then some (c.toNat - 55)
  else none

/-- The number that hexadecimal digits denote. -/
def hexNumber? (digits : Text) : Option Nat :=
  digits.foldl (fun n c => do return 16 * (← n) + (← hexValue? c)) (some 0)

/-- Reads the character that so many hexadecimal digits denote. -/
def readCodePoint (width : Nat) (s : Text) : Option (Char × Text) :=
  if s.length < width then none
  else
    match hexNumber? (s.take width) with
    | none => none
    | some n => if n.isValidChar then some (Char.ofNat n, s.drop width) else none

/-- Reads an escape after its backslash. -/
def readEscape : Text → Option (Char × Text)
  | 'b' :: rest => some ('\x08', rest)
  | 't' :: rest => some ('\t', rest)
  | 'n' :: rest => some ('\n', rest)
  | 'f' :: rest => some ('\x0c', rest)
  | 'r' :: rest => some ('\r', rest)
  | '"' :: rest => some ('"', rest)
  | '\\' :: rest => some ('\\', rest)
  | 'u' :: rest => readCodePoint 4 rest
  | 'U' :: rest => readCodePoint 8 rest
  | _ => none

/-- Reads a string of one line up to its closing double quote, with so much fuel as
there are characters. -/
def readBasic : Nat → Text → Option (Text × Text)
  | 0, _ => none
  | fuel + 1, s =>
    match s with
    | [] => none
    | '"' :: rest => some ([], rest)
    | '\\' :: rest =>
      match readEscape rest with
      | none => none
      | some (c, rest) => (readBasic fuel rest).map fun (body, rest) => (c :: body, rest)
    | c :: rest =>
      if isLineCharacter c then
        (readBasic fuel rest).map fun (body, rest) => (c :: body, rest)
      else none

/-- Reads a string of one line without escapes up to its closing single quote. -/
def readLiteral (s : Text) : Option (Text × Text) :=
  let body := s.takeWhile fun c => isLineCharacter c && c != '\''
  match s.drop body.length with
  | '\'' :: rest => some (body, rest)
  | _ => none

/-- Reads the rest of a string of several lines. A line end is a line feed, however it
is written. Up to two quotes may stand anywhere, before the closing ones too. A
backslash at the end of a line joins it with the next text. -/
def readMultiline (quote : Char) (escapes : Bool) : Nat → Text → Option (Text × Text)
  | 0, _ => none
  | fuel + 1, s =>
    match s with
    | [] => none
    | c :: rest =>
      if c = quote ∧ rest.take 2 = [quote, quote] then
        match rest.drop 2 with
        | d :: e :: more =>
          if d = quote then
            if e = quote then some ([quote, quote], more) else some ([quote], e :: more)
          else some ([], d :: e :: more)
        | [d] => if d = quote then some ([quote], []) else some ([], [d])
        | [] => some ([], [])
      else if escapes && c == '\\' then
        match readNewline (skipSpaces rest) with
        | some more => readMultiline quote escapes fuel (skipLines fuel more)
        | none =>
          match readEscape rest with
          | none => none
          | some (c, rest) =>
            (readMultiline quote escapes fuel rest).map fun (body, rest) => (c :: body, rest)
      else
        match readNewline s with
        | some rest =>
          (readMultiline quote escapes fuel rest).map fun (body, rest) => ('\n' :: body, rest)
        | none =>
          if isLineCharacter c then
            (readMultiline quote escapes fuel rest).map fun (body, rest) => (c :: body, rest)
          else none
where
  /-- Drops blanks and well-formed line ends. -/
  skipLines : Nat → Text → Text
    | 0, s => s
    | fuel + 1, s =>
      let s := skipSpaces s
      match readNewline s with
      | some rest => skipLines fuel rest
      | none => s

/-- Drops the line end right after the opening quotes of a string of several lines. -/
def skipFirstNewline (s : Text) : Text := (readNewline s).getD s

/-- **Reads a string** of any of the four forms. -/
def readString : Text → Option (Text × Text)
  | '"' :: '"' :: '"' :: rest =>
    readMultiline '"' true (rest.length + 1) (skipFirstNewline rest)
  | '"' :: rest => readBasic (rest.length + 1) rest
  | '\'' :: '\'' :: '\'' :: rest =>
    readMultiline '\'' false (rest.length + 1) (skipFirstNewline rest)
  | '\'' :: rest => readLiteral rest
  | _ => none

/-! ### Numbers -/

/-- Reads digits that may have single underscores between them. The first character
has to be a digit. -/
def readDigits (isDigit : Char → Bool) : Text → Option (Text × Text)
  | [] => none
  | [c] => if isDigit c then some ([c], []) else none
  | c :: d :: rest =>
    if isDigit c then
      if d = '_' then (readDigits isDigit rest).map fun (more, rest) => (c :: more, rest)
      else if isDigit d then
        (readDigits isDigit (d :: rest)).map fun (more, rest) => (c :: more, rest)
      else some ([c], d :: rest)
    else none

/-- Reads an optional sign: whether it is a minus. -/
def readSign : Text → Bool × Text
  | '-' :: rest => (true, rest)
  | '+' :: rest => (false, rest)
  | s => (false, s)

/-- Reads decimal digits without a leading zero, zero itself aside. -/
def readWhole : Text → Option (Text × Text)
  | '0' :: rest => some (['0'], rest)
  | s => readDigits Char.isDigit s

/-- Reads digits of a base after its prefix. -/
def readBase (base : Nat) (s : Text) : Option (Int × Text) :=
  let inBase (c : Char) : Bool := (hexValue? c).any (· < base)
  (readDigits inBase s).bind fun (digits, rest) =>
    let n := digits.foldl (fun n c => base * n + (hexValue? c).getD 0) 0
    if Integer.isNarrow n then some (n, rest) else none

/-- **Reads an integer** of 64 bits: decimal with an optional sign, or hexadecimal,
octal or binary after a prefix. -/
def readInteger : Text → Option (Int × Text)
  | '0' :: 'x' :: rest => readBase 16 rest
  | '0' :: 'o' :: rest => readBase 8 rest
  | '0' :: 'b' :: rest => readBase 2 rest
  | s =>
    let (negative, rest) := readSign s
    (readWhole rest).bind fun (digits, rest) =>
      let size : Int := Decimal.digitsValue digits
      let i := if negative then -size else size
      if Integer.isNarrow i then some (i, rest) else none

/-- Reads an exponent: its letter, sign and digits. -/
def readExponent : Text → Option (Text × Text)
  | mark :: rest =>
    if mark = 'e' ∨ mark = 'E' then
      let (negative, rest) := readSign rest
      (readDigits Char.isDigit rest).map fun (digits, rest) =>
        (['e', if negative then '-' else '+'] ++ digits, rest)
    else none
  | [] => none

/-- Reads a fraction, an exponent or both, at least one of them. -/
def readFraction : Text → Option (Text × Text)
  | '.' :: rest =>
    (readDigits Char.isDigit rest).bind fun (digits, rest) =>
      match rest with
      | mark :: _ =>
        if mark = 'e' ∨ mark = 'E' then
          (readExponent rest).map fun (exponent, rest) => ('.' :: digits ++ exponent, rest)
        else some ('.' :: digits, rest)
      | [] => some ('.' :: digits, [])
  | s => readExponent s

/-- **Reads a double.** A number too large for one is malformed, unless it is
negative. -/
def readFloat (s : Text) : Option (Float × Text) :=
  let (negative, rest) := readSign s
  let signed (x : Float) : Float := if negative then -x else x
  match rest with
  | 'i' :: 'n' :: 'f' :: rest => some (signed (Float.ofBits 0x7FF0000000000000), rest)
  | 'n' :: 'a' :: 'n' :: rest => some (signed (Float.ofBits 0x7FF8000000000000), rest)
  | _ =>
    (readWhole rest).bind fun (digits, rest) =>
      (readFraction rest).bind fun (fraction, rest) =>
        (Decimal.read (digits ++ fraction)).bind fun x =>
          if x.isInf && !negative then none else some (signed x, rest)

/-! ### Dates and times -/

/-- Reads a number of so many digits that lies between two bounds. -/
def readField (width low high : Nat) (s : Text) : Option (Nat × Text) :=
  let digits := s.take width
  if digits.length = width ∧ digits.all Char.isDigit then
    let n := Decimal.digitsValue digits
    if low ≤ n ∧ n ≤ high then some (n, s.drop width) else none
  else none

/-- Reads one given character. -/
def readMark (mark : Char) : Text → Option Text
  | c :: rest => if c = mark then some rest else none
  | [] => none

/-- The number of days of a month. -/
def daysIn (year month : Nat) : Nat :=
  if month = 2 then
    if year % 4 = 0 ∧ (year % 100 ≠ 0 ∨ year % 400 = 0) then 29 else 28
  else if month = 4 ∨ month = 6 ∨ month = 9 ∨ month = 11 then 30
  else 31

/-- Reads a day of the calendar. -/
def readDate (s : Text) : Option Text := do
  let (year, s) ← readField 4 0 9999 s
  let (month, s) ← readField 2 1 12 (← readMark '-' s)
  let (_, s) ← readField 2 1 (daysIn year month) (← readMark '-' s)
  return s

/-- Reads a time of day, with or without fractions of a second. -/
def readTime (s : Text) : Option Text := do
  let (_, s) ← readField 2 0 23 s
  let (_, s) ← readField 2 0 59 (← readMark ':' s)
  let (_, s) ← readField 2 0 60 (← readMark ':' s)
  match s with
  | '.' :: rest => if rest.head?.any Char.isDigit then some (rest.dropWhile Char.isDigit) else none
  | _ => some s

/-- Reads the distance of a time from universal time, if one is given. -/
def readOffset (s : Text) : Option Text :=
  match s with
  | [] => some []
  | mark :: rest =>
    if mark = 'Z' ∨ mark = 'z' then some rest
    else if mark = '+' ∨ mark = '-' then do
      let (_, rest) ← readField 2 0 23 rest
      let (_, rest) ← readField 2 0 59 (← readMark ':' rest)
      return rest
    else some s

/-- **Reads a date, a time, or both.** -/
def readMoment (s : Text) : Option Text :=
  match readDate s with
  | none => readTime s
  | some rest =>
    match rest with
    | mark :: more =>
      if mark = 'T' ∨ mark = 't' ∨ mark = ' ' then
        match readTime more with
        | some rest => readOffset rest
        | none => some rest
      else some rest
    | [] => some []

end DesignRecipe.Toml

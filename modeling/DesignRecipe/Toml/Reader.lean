import DesignRecipe.Toml.Scalar

/-!
# Settings files: reading

Keys, values, headers and the document as a whole. Arrays and inline tables nest to a
fixed depth, which is also the bound of the recursion: `readValue room` reads values
that hold at most `room` levels of them, and what a level consists of is read by
functions that are given the reader of the level below.
-/

namespace DesignRecipe.Toml

/-- How deep arrays and inline tables may nest, and how many names a key may have. -/
def depthLimit : Nat := 79

/-! ### Keys -/

/-- A character of a name without quotes. -/
def isBare (c : Char) : Bool := c.isAlphanum || c == '_' || c == '-'

/-- Reads one name of a key. -/
def readName : Text → Option (Text × Text)
  | '"' :: rest => readBasic (rest.length + 1) rest
  | '\'' :: rest => readLiteral rest
  | s =>
    let name := s.takeWhile isBare
    if name.isEmpty then none else some (name, s.drop name.length)

/-- **Reads a key** of at most so many names with dots between them: the path before its
last name, that name, and the rest. Blanks may stand around every name. -/
def readKey : Nat → Text → Option (List Text × Text × Text)
  | 0, _ => none
  | room + 1, s =>
    match readName (skipSpaces s) with
    | none => none
    | some (name, rest) =>
      match skipSpaces rest with
      | '.' :: rest =>
        (readKey room rest).map fun (path, key, rest) => (name :: path, key, rest)
      | rest => some ([], name, rest)

/-! ### Values -/

/-- Drops blanks, line ends, and comments with the line ends after them. -/
def skipBreaks : Nat → Text → Text
  | 0, s => s
  | fuel + 1, s =>
    match readNewline (skipComment (skipSpaces s)) with
    | some rest => skipBreaks fuel rest
    | none => skipSpaces s

/-- Reads the items of an array after its opening bracket. A comma may follow the
last. -/
def readItems (value : Text → Option (Toml × Text)) : Nat → Text → Option (List Toml × Text)
  | 0, _ => none
  | fuel + 1, s =>
    match skipBreaks s.length s with
    | ']' :: rest => some ([], rest)
    | s =>
      match value s with
      | none => none
      | some (item, rest) =>
        match skipBreaks rest.length rest with
        | ',' :: rest =>
          (readItems value fuel rest).map fun (items, rest) => (item :: items, rest)
        | ']' :: rest => some ([item], rest)
        | _ => none

/-- Reads a key, an equals sign and a value. -/
def readPair (value : Text → Option (Toml × Text)) (s : Text) : Option (Pair × Text) :=
  match readKey depthLimit s with
  | some (path, key, '=' :: rest) =>
    (value (skipSpaces rest)).map fun (v, rest) => (⟨path, key, v⟩, rest)
  | _ => none

/-- Reads the pairs of an inline table up to its closing brace. No comma follows the
last. -/
def readPairs (value : Text → Option (Toml × Text)) : Nat → Text → Option (List Pair × Text)
  | 0, _ => none
  | fuel + 1, s =>
    match readPair value s with
    | none => none
    | some (pair, rest) =>
      match skipSpaces rest with
      | ',' :: rest =>
        (readPairs value fuel rest).map fun (pairs, rest) => (pair :: pairs, rest)
      | '}' :: rest => some ([pair], rest)
      | _ => none

/-- Reads an inline table after its opening brace. -/
def readInline (value : Text → Option (Toml × Text)) (s : Text) : Option (Toml × Text) :=
  match skipSpaces s with
  | '}' :: rest => some (.table .inline [], rest)
  | s =>
    (readPairs value s.length s).bind fun (pairs, rest) =>
      (insertAll .inline [] pairs).map fun entries => (.table .inline entries, rest)

/-- Reads a value that starts with a digit or a sign, or a number that is spelled as a
word. A date is looked for first, an integer last. -/
def readNumber (s : Text) : Option (Toml × Text) :=
  match readMoment s with
  | some rest => some (.moment, rest)
  | none =>
    match readFloat s with
    | some (x, rest) => some (.float x, rest)
    | none => (readInteger s).map fun (i, rest) => (.integer i, rest)

/-- **Reads a value** with at most so many levels of arrays and inline tables. -/
def readValue : Nat → Text → Option (Toml × Text)
  | _, '"' :: rest => (readString ('"' :: rest)).map fun (s, rest) => (.string s, rest)
  | _, '\'' :: rest => (readString ('\'' :: rest)).map fun (s, rest) => (.string s, rest)
  | _, 't' :: 'r' :: 'u' :: 'e' :: rest => some (.boolean true, rest)
  | _, 'f' :: 'a' :: 'l' :: 's' :: 'e' :: rest => some (.boolean false, rest)
  | room + 1, '[' :: rest =>
    (readItems (readValue room) (rest.length + 1) rest).map fun (items, rest) =>
      (.array items, rest)
  | room + 1, '{' :: rest => readInline (readValue room) rest
  | _, s => readNumber s

/-! ### Documents -/

/-- Reads a header after its opening bracket, up to the end of its line. -/
def readHeader : Text → Option (Section × Text)
  | '[' :: rest => do
    let (path, key, rest) ← readKey depthLimit rest
    let rest ← readLineEnd (← readMark ']' (← readMark ']' rest))
    return (⟨true, path, key, []⟩, rest)
  | rest => do
    let (path, key, rest) ← readKey depthLimit rest
    let rest ← readLineEnd (← readMark ']' rest)
    return (⟨false, path, key, []⟩, rest)

/-- Reads lines: the pairs before the first header, and the sections. -/
def readLines : Nat → Text → Option (List Pair × List Section)
  | 0, _ => none
  | fuel + 1, s =>
    match skipSpaces s with
    | [] => some ([], [])
    | '[' :: rest =>
      match readHeader rest with
      | none => none
      | some (header, rest) =>
        (readLines fuel rest).map fun (pairs, sections) =>
          ([], { header with pairs := pairs } :: sections)
    | s =>
      match readLineEnd s with
      | some rest => readLines fuel rest
      | none =>
        match readPair (readValue depthLimit) s with
        | none => none
        | some (pair, rest) =>
          match readLineEnd rest with
          | none => none
          | some rest =>
            (readLines fuel rest).map fun (pairs, sections) => (pair :: pairs, sections)

/-- Drops a mark of the byte order in front of a text. -/
def dropOrderMark : Text → Text
  | '\uFEFF' :: rest => rest
  | s => s

/-- **Reads a settings file.** -/
def read (s : Text) : Option Entries := do
  let s := dropOrderMark s
  let (pairs, sections) ← readLines (s.length + 1) s
  addSections (← insertAll .header [] pairs) sections

end DesignRecipe.Toml

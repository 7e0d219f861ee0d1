import DesignRecipe.Text.Blank

/-!
# Text

A text is a list of characters, so that a column is a number of characters and every
reader is a recursion on what is still to be read. This module holds the operations
that all readers share: trimming, comparison without regard to ASCII case, search,
splitting into lines and into words, and the decimal digits of a number.
-/

namespace DesignRecipe

/-- A text, as the list of its characters. -/
abbrev Text := List Char

instance : Coe String Text := ⟨String.toList⟩

/-- A part of a text together with the column where it starts. -/
structure Piece where
  column : Nat
  text : Text
deriving DecidableEq, Repr

namespace Text

/-! ### Trimming -/

/-- Drops the longest end of a text whose characters all satisfy `p`. -/
def dropEndWhile (p : Char → Bool) : Text → Text
  | [] => []
  | c :: rest =>
    match dropEndWhile p rest with
    | [] => if p c then [] else [c]
    | kept => c :: kept

/-- Drops the blanks at the start. -/
def trimLeft (s : Text) : Text := s.dropWhile isBlank

/-- Drops the blanks at the end. -/
def trimRight (s : Text) : Text := dropEndWhile isBlank s

/-- Drops the blanks at both ends. -/
def trim (s : Text) : Text := trimRight (trimLeft s)

/-- The number of blanks before the first other character. -/
def leadingBlanks (s : Text) : Nat := (s.takeWhile isBlank).length

/-- Drops the line end, however many carriage returns and line feeds it has. -/
def dropLineEnd (s : Text) : Text := dropEndWhile (fun c => c == '\r' || c == '\n') s

/-! ### Comparison and search -/

/-- Equality without regard to ASCII case. -/
def equalsIgnoringCase (s t : Text) : Bool := s.map Char.toLower == t.map Char.toLower

/-- Whether the text starts with the label, without regard to ASCII case. -/
def startsIgnoringCase (s label : Text) : Bool :=
  equalsIgnoringCase (s.take label.length) label

/-- Whether `part` occurs somewhere in the text. -/
def contains : Text → Text → Bool
  | [], part => part.isEmpty
  | c :: rest, part => part.isPrefixOf (c :: rest) || contains rest part

/-! ### Lines and words -/

/-- The lines of a text. A line feed ends a line; what follows the last one is a line
only if it is not empty. -/
def lines : Text → List Text
  | [] => []
  | c :: rest =>
    if c = '\n' then [] :: lines rest
    else
      match lines rest with
      | [] => [[c]]
      | line :: more => (c :: line) :: more

/-- The words of a text that starts at a column: its maximal runs of characters that
are not blank. -/
def wordsFrom : Nat → Text → List Piece
  | _, [] => []
  | column, c :: rest =>
    let more := wordsFrom (column + 1) rest
    if isBlank c then more
    else if rest.head?.all isBlank then ⟨column, [c]⟩ :: more
    else
      match more with
      | [] => [⟨column, [c]⟩]
      | word :: others => ⟨column, c :: word.text⟩ :: others

/-- **The words of a text**, each with the column where it starts. -/
def words (s : Text) : List Piece := wordsFrom 0 s

/-! ### Writing -/

/-- The decimal digits of a natural number. -/
def ofNat (n : Nat) : Text := Nat.toDigits 10 n

/-- The decimal digits of an integer, after a minus sign if it is negative. -/
def ofInt : Int → Text
  | .ofNat n => ofNat n
  | .negSucc n => '-' :: ofNat (n + 1)

/-- The texts in order, with the separator between neighbours. -/
def join (separator : Text) : List Text → Text
  | [] => []
  | [s] => s
  | s :: rest => s ++ separator ++ join separator rest

/-- So many spaces. -/
def spaces (n : Nat) : Text := List.replicate n ' '

end Text

end DesignRecipe

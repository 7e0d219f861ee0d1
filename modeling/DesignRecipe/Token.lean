import DesignRecipe.Text.Basic

/-!
# Tokens

The values of an example are written one after the other with blanks between them.
Inside brackets blanks separate elements just as commas do, so `[1 2 3]` and `[1,2,3]`
are one token. A double quote at the start of a token opens a string in which nothing
has a meaning but the next double quote; inside brackets both quotes open strings that
know the backslash. A `#` outside of strings ends the values.

Brackets and strings that do not match are repaired: each token that comes out is
closed, and each repair is reported with the column it was made for.
-/

namespace DesignRecipe

/-! ### Brackets -/

/-- The three kinds of brackets. -/
inductive Bracket
  | square
  | round
  | curly
deriving DecidableEq, Repr

namespace Bracket

/-- The opening bracket of a kind. -/
def opener : Bracket → Char
  | .square => '['
  | .round => '('
  | .curly => '{'

/-- The closing bracket of a kind. -/
def closer : Bracket → Char
  | .square => ']'
  | .round => ')'
  | .curly => '}'

/-- The kind that a character opens. -/
def ofOpener? : Char → Option Bracket
  | '[' => some .square
  | '(' => some .round
  | '{' => some .curly
  | _ => none

/-- The kind that a character closes. -/
def ofCloser? : Char → Option Bracket
  | ']' => some .square
  | ')' => some .round
  | '}' => some .curly
  | _ => none

end Bracket

/-! ### Repairs -/

/-- What was wrong with the values as written, and thereby what was done about it. -/
inductive Repair
  /-- A string had no closing quote; one was added at the end. -/
  | unterminated
  /-- A bracket was left open; its closing bracket was added at the end. -/
  | unclosed (bracket : Bracket)
  /-- A closing bracket of the wrong kind was replaced by the expected one. -/
  | mismatched (found expected : Bracket)
  /-- A closing bracket without an opening one was dropped. -/
  | unmatched (found : Bracket)
  /-- A value more than expected was ignored. -/
  | excess (text : Text)
deriving DecidableEq, Repr

/-- What is said about a repair. -/
def Repair.message : Repair → Text
  | .unterminated => "Unterminated string - closing quote added"
  | .unclosed b => "Unclosed '" ++ [b.opener] ++ "' - '" ++ [b.closer] ++ "' added"
  | .mismatched found expected =>
    "Mismatched '" ++ [found.closer] ++ "' - expected '" ++ [expected.closer] ++ "'"
  | .unmatched found => "Unmatched '" ++ [found.closer] ++ "' has no opening bracket"
  | .excess text => "Too many values - ignoring " ++ text

/-- A repair and the column it was made for. -/
structure TokenIssue where
  column : Nat
  repair : Repair
deriving DecidableEq, Repr

/-! ### The scan -/

/-- Which string the scan is in. -/
inductive Quoting
  | outside
  /-- In a string that started its token. -/
  | top
  /-- In a string inside brackets, opened by a quote. -/
  | nested (quote : Char)
deriving DecidableEq, Repr

/-- The state of the scan: what has been read of the values so far. Lists that grow at
their end are kept with the latest entry first. -/
structure Scan where
  /-- The finished tokens, latest first. -/
  tokens : List Piece
  /-- The column where the current token starts. -/
  start : Nat
  /-- The characters of the current token, latest first. -/
  current : Text
  /-- The open brackets with their columns, innermost first. -/
  brackets : List (Nat × Bracket)
  quoting : Quoting
  /-- Whether blanks were passed inside brackets since the last character. -/
  gap : Bool
  /-- The character before the next one. -/
  previous : Option Char
  /-- The repairs made, latest first. -/
  issues : List TokenIssue
deriving DecidableEq, Repr

namespace Scan

/-- Nothing read yet. -/
def empty : Scan where
  tokens := []
  start := 0
  current := []
  brackets := []
  quoting := .outside
  gap := false
  previous := none
  issues := []

/-- Adds a character to the current token. -/
def push (s : Scan) (c : Char) : Scan := { s with current := c :: s.current }

/-- Reports a repair. -/
def report (s : Scan) (column : Nat) (repair : Repair) : Scan :=
  { s with issues := ⟨column, repair⟩ :: s.issues }

/-- Finishes the current token, if one was begun. -/
def endToken (s : Scan) : Scan :=
  if s.current.isEmpty then s
  else { s with tokens := ⟨s.start, s.current.reverse⟩ :: s.tokens, current := [] }

/-- Whether a character leaves no room for a separator after it. -/
def opensElement (c : Char) : Bool :=
  c == '[' || c == '(' || c == '{' || c == ',' || c == ':'

/-- Whether a character leaves no room for a separator before it. -/
def closesElement (c : Char) : Bool :=
  c == ']' || c == ')' || c == '}' || c == ',' || c == ':'

/-- Turns blanks passed inside brackets into a comma, where `next` starts a further
element. -/
def separate (s : Scan) (next : Char) : Scan :=
  if s.gap then
    let s := { s with gap := false }
    if s.current.head?.any opensElement || closesElement next then s else s.push ','
  else s

/-- A closing bracket, repaired if it is not the expected one. -/
def close (s : Scan) (column : Nat) (found : Bracket) : Scan :=
  let s :=
    match s.brackets with
    | (_, expected) :: outer =>
      let s := { s with brackets := outer }
      let s := if expected = found then s else s.report column (.mismatched found expected)
      s.push expected.closer
    | [] => s.report column (.unmatched found)
  if s.brackets.isEmpty then { s with gap := false } else s

/-- A character that is neither blank nor in a string nor the start of a comment, with
the column where it stands. -/
def mark (s : Scan) (column : Nat) (c : Char) : Scan :=
  match Bracket.ofOpener? c, Bracket.ofCloser? c with
  | some b, _ => { s.push c with brackets := (column, b) :: s.brackets }
  | none, some b => s.close column b
  | none, none =>
    if (c = '"' ∨ c = '\'') ∧ s.brackets ≠ [] then { s.push c with quoting := .nested c }
    else s.push c

/-- Reads one character outside of strings. A `#` ends the values. -/
def stepOutside (s : Scan) (before : Option Char) (column : Nat) (c : Char) : Option Scan :=
  if Text.isBlank c then some (if s.brackets.isEmpty then s.endToken else { s with gap := true })
  else if c = '#' then none
  else
    let s := if s.current.isEmpty then { s with start := column } else s
    if s.brackets.isEmpty then
      if c = '"' ∧ before.all Text.isBlank then some { s.push c with quoting := .top }
      else some (s.mark column c)
    else some ((s.separate c).mark column c)

/-- **Reads one character** at a column, or ends at the start of a comment. -/
def step (s : Scan) (column : Nat) (c : Char) : Option Scan :=
  let before := s.previous
  let s := { s with previous := some c }
  match s.quoting with
  | .top => some (if c = '"' then { s.push c with quoting := .outside } else s.push c)
  | .nested quote =>
    some (if c = quote ∧ before ≠ some '\\' then { s.push c with quoting := .outside }
      else s.push c)
  | .outside => s.stepOutside before column c

/-- Reads a text that starts at a column, up to a comment or the end. -/
def run (s : Scan) : Nat → Text → Scan
  | _, [] => s
  | column, c :: rest =>
    match s.step column c with
    | none => s
    | some s => s.run (column + 1) rest

/-- Closes the string that is still open at the end of the text, if any. -/
def closeString (s : Scan) (column : Nat) : Scan :=
  match s.quoting with
  | .outside => s
  | .top => { (s.report column .unterminated).push '"' with quoting := .outside }
  | .nested quote => { (s.report column .unterminated).push quote with quoting := .outside }

/-- Closes brackets that are still open at the end of the text, innermost first. -/
def closeBrackets (s : Scan) : List (Nat × Bracket) → Scan
  | [] => { s with brackets := [] }
  | (column, b) :: outer => ((s.report column (.unclosed b)).push b.closer).closeBrackets outer

/-- Closes all that is still open at the end of the text, which has a length. -/
def finish (s : Scan) (length : Nat) : Scan :=
  let s := s.closeString length
  (s.closeBrackets s.brackets).endToken

end Scan

/-! ### Slots -/

/-- The tokens laid out in their slots, and all repairs. -/
structure Tokens where
  /-- As many slots as values are expected; those without a token come last. -/
  slots : List (Option Piece)
  issues : List TokenIssue
deriving DecidableEq, Repr

/-- The tokens of a text and the repairs made to it, both in order. -/
def tokensOf (text : Text) : List Piece × List TokenIssue :=
  let s := (Scan.empty.run 0 text).finish text.length
  (s.tokens.reverse, s.issues.reverse)

/-- **Splits a text into an expected number of values.** Further values are ignored
and reported after all other repairs. -/
def tokenize (text : Text) (arity : Nat) : Tokens :=
  let (tokens, issues) := tokensOf text
  let taken := tokens.take arity
  { slots := taken.map some ++ List.replicate (arity - taken.length) none
    issues := issues ++ (tokens.drop arity).map fun t => ⟨t.column, .excess t.text⟩ }

end DesignRecipe

import DesignRecipe.Text.Basic

/-!
# Where a line belongs

An outline alternates between documentation blocks, delimited by three double quotes,
and body outlines made of `#` comments. A block turns into a design recipe at its
first section header. What a line belongs to depends on the lines before it only
through a `State`: the region of the outline and the section of the recipe.

Sections follow each other in a fixed order. A header of an earlier section does not
count as one, it is a further line of the recipe.
-/

namespace DesignRecipe.Outline

/-- The regions of an outline. -/
inductive Region
  /-- Between blocks, before any body outline. -/
  | outside
  /-- In a block, before its first section header. -/
  | block
  /-- In a block, from its first section header on. -/
  | recipe
  /-- In the comments of a body outline. -/
  | body
deriving DecidableEq, Repr

/-- The name of a region. -/
def Region.name : Region → Text
  | .outside => "Init"
  | .block => "Block"
  | .recipe => "DesignRecipe"
  | .body => "BodyOutline"

/-- The sections of a design recipe. -/
inductive Heading
  /-- No section: text that continues the one before. -/
  | none
  | contract
  | purpose
  | inOuts
  | «example»
deriving DecidableEq, Repr

namespace Heading

/-- The name of a section. -/
def name : Heading → Text
  | .none => "None"
  | .contract => "Contract"
  | .purpose => "Purpose"
  | .inOuts => "InOuts"
  | .example => "Example"

/-- The place of a section in the order of sections. -/
def rank : Heading → Nat
  | .none => 0
  | .contract => 1
  | .purpose => 2
  | .inOuts => 3
  | .example => 4

/-- The header that a section starts with. -/
def label : Heading → Text
  | .none => []
  | .contract => ['C', 'O', 'N', 'T', 'R', 'A', 'C', 'T']
  | .purpose => ['P', 'U', 'R', 'P', 'O', 'S', 'E']
  | .inOuts => ['I', 'N', '/', 'O', 'U', 'T', 'S']
  | .example => ['E', 'X', 'A', 'M', 'P', 'L', 'E']

/-- The sections that have a header, in their order. -/
def labelled : List Heading := [.contract, .purpose, .inOuts, .example]

end Heading

/-- The region that the reading is in, and the section if it is a recipe. -/
structure State where
  region : Region
  heading : Heading
deriving DecidableEq, Repr

/-- Three double quotes, which delimit blocks. -/
def delimiter : Text := ['"', '"', '"']

/-- The arrow of contracts and examples. -/
def arrow : Text := ['-', '>']

namespace State

/-- The state before the first line. -/
def initial : State := ⟨.outside, .none⟩

/-- The state in words. -/
def describe (s : State) : Text := s.region.name ++ ['.'] ++ s.heading.name

/-- Whether the reading is in a section of a recipe. -/
def inRecipe (s : State) (h : Heading) : Bool := s.region = .recipe && s.heading = h

/-- Whether a header of a section counts: sections never go backward. -/
def allows (s : State) (h : Heading) : Bool := s.heading.rank ≤ h.rank

/-- Whether a line starts the section: by its header, or for an example by an arrow
anywhere. -/
def starts (s : State) (line : Text) (h : Heading) : Bool :=
  (Text.startsIgnoringCase line h.label && s.allows h) ||
    (h = .example && Text.contains line arrow)

/-- The section that a line starts, the first one in order. -/
def detect? (s : State) (line : Text) : Option Heading := Heading.labelled.find? (s.starts line)

/-- Whether a line delimits blocks. -/
def isDelimiter (line : Text) : Bool := delimiter.isPrefixOf line

/-- One transition on a trimmed line. The flag tells whether the line has only closed
something and is to be looked at once more. -/
def step (s : State) (line : Text) : State × Bool :=
  match s.region with
  | .outside =>
    if isDelimiter line then (⟨.block, .none⟩, false)
    else if line.head? = some '#' then (⟨.body, .none⟩, false)
    else (s, false)
  | .block =>
    if isDelimiter line then (⟨.outside, .none⟩, false)
    else
      match s.detect? line with
      | some h => (⟨.recipe, h⟩, false)
      | none => (s, false)
  | .recipe =>
    if isDelimiter line then (⟨.block, .none⟩, true)
    else (⟨.recipe, (s.detect? line).getD .none⟩, false)
  | .body => if isDelimiter line then (⟨.outside, .none⟩, true) else (s, false)

/-- **The state after a line.** A line that closes a recipe or a body outline is looked
at once more, so that a delimiter ends the block of a recipe and opens the block after
a body outline. -/
def next (s : State) (line : Text) : State :=
  let line := Text.trim line
  match s.step line with
  | (s, true) => (s.step line).1
  | (s, false) => s

end State

end DesignRecipe.Outline

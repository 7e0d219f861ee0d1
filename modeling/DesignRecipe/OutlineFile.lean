import DesignRecipe.Host
import DesignRecipe.Path

/-!
# Outline files

Which files are outlines, what module each belongs to, where the files made from it go,
and how it is read. Outlines are known by the end of their names alone, and for that any
name will do. A module is a text, so its outline needs a name that is one.
-/

namespace DesignRecipe.OutlineFile

/-- The end of the name of an outline file. -/
def ending : Text := ['.', 'o', 'l', 'n', '.', 'p', 'y']

/-- Whether a name is that of an outline file. -/
def isOutline (name : Text) : Bool := ending.isSuffixOf name

/-- **The module of an outline**: what its file name has before the ending. The name has to
be a text, and there has to be something before the ending. -/
def moduleName (path : RawText) : Except Failure Text :=
  match (Path.fileName? path).bind RawText.text? with
  | none => .error (.invalidOutlinePath path)
  | some name =>
    let stem := name.take (name.length - ending.length)
    if isOutline name && !stem.isEmpty then .ok stem else .error (.invalidOutlinePath path)

/-- The directory that a path stands in, as far as the path tells. -/
def ownDirectory (path : RawText) : RawText :=
  match Path.parent? path with
  | none | some [] => Path.dot
  | some dir => dir

/-! ### Order -/

/-- Whether bytes come before others: at the first difference, by their numbers. -/
def bytesBefore : List Nat → List Nat → Bool
  | _, [] => false
  | [], _ :: _ => true
  | a :: s, b :: t => a < b || (a == b && bytesBefore s t)

/-- Whether a place does not come after another: at the first difference, by the bytes of
the names. -/
def notAfter : List RawText → List RawText → Bool
  | [], _ => true
  | _ :: _, [] => false
  | a :: p, b :: q =>
    bytesBefore (RawText.octets a) (RawText.octets b) ||
      (RawText.octets a == RawText.octets b && notAfter p q)

/-! ### On a host -/

section

variable {m : Type → Type} [Monad m] [Host m]

/-- **The directory for what is made from an outline**: its own unless another is asked
for, and the working directory if the one asked for is none. -/
def outputDirectory (path : RawText) : Option RawText → m RawText
  | none => return ownDirectory path
  | some dir => return if ← Host.isDirectory dir then dir else Path.dot

/-- **Reads an outline file.** -/
def read (options : Outline.Options) (path : RawText) : m (Except Failure Outline.Output) := do
  match ← Host.read path with
  | .error e => return .error (.fileRead path e)
  | .ok text => return (Outline.read options text).mapError .aborted

/-- The path of what lies below a directory. -/
def below (dir : RawText) (place : List RawText) : RawText := place.foldl Path.join dir

/-- The name of a file that has been found from a directory. A file found from itself
has the name in the path. -/
def foundName (dir : RawText) (place : List RawText) : RawText :=
  place.getLast?.getD ((Path.fileName? dir).getD dir)

/-- **Finds the outlines below a directory**, ordered name by name. How a name ends is told
from what is shown of it, so a name need not be a text to be found. -/
def discover (dir : RawText) : m (List RawText) := do
  let found := (← Host.filesBelow dir).filter fun place =>
    isOutline (RawText.shown (foundName dir place))
  return (found.mergeSort notAfter).map (below dir)

end

end DesignRecipe.OutlineFile

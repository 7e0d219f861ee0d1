import DesignRecipe.Host
import DesignRecipe.Settings.File

/-!
# Settings from files

Settings are read from a file that is named, and are the standard ones where none is.
-/

namespace DesignRecipe.Settings

variable {m : Type → Type} [Monad m] [Host m]

/-- **Loads settings** from the file at a path. -/
def load : Option RawText → m (Except Failure Settings)
  | none => return .ok standard
  | some path => do
    match ← Host.read path with
    | .error e => return .error (.fileRead path e)
    | .ok text => return ofText text

/-- **Saves settings** to the file at a path. -/
def save (s : Settings) (path : RawText) : m (Except Failure Unit) := do
  match s.toText with
  | .error f => return .error f
  | .ok text => return (← Host.write path text).mapError .io

end DesignRecipe.Settings

import DesignRecipe.Backend
import DesignRecipe.Failure

/-!
# Settings

All that a user can set: how outlines are read, what stands at the top of a stub, and
which backend writes.
-/

namespace DesignRecipe

/-- The settings of a run. -/
structure Settings where
  options : Outline.Options
  template : Template
  /-- The name of the backend. -/
  backend : Text
deriving DecidableEq, Repr

namespace Settings

/-- The settings where nothing is set. -/
def standard : Settings := ⟨.standard, .standard, "python"⟩

/-- The backend that is named. -/
def backend? (s : Settings) : Except Failure Backend :=
  match Backend.ofName? s.backend with
  | some b => .ok b
  | none => .error (.unknownBackend s.backend)

/-- **Rejects settings that nothing can be done with.** -/
def validate (s : Settings) : Except Failure Unit :=
  if s.options.indentWidth = 0 then .error .zeroIndent
  else
    match s.backend? with
    | .ok _ => .ok ()
    | .error e => .error e

end Settings

end DesignRecipe

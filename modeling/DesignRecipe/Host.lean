import DesignRecipe.Failure

/-!
# The host

What a run needs of its surroundings: files, a user who answers questions, and two
channels to write to. All that happens around the reading of outlines is written
against this interface, and so runs on a real system as on a model of one.
-/

namespace DesignRecipe

/-- **The surroundings of a run.** -/
class Host (m : Type → Type) where
  isDirectory : RawText → m Bool
  isFile : RawText → m Bool
  /-- Whether there is anything under a path. -/
  occupied : RawText → m Bool
  /-- The text of a file. -/
  read : RawText → m (Except FileError Text)
  /-- Writes a text to a file, whether there is one already or not. -/
  write : RawText → Text → m (Except FileError Unit)
  /-- The files below a directory, by the names on the way to them. The way from a file
  to itself has no names. -/
  filesBelow : RawText → m (List (List RawText))
  /-- Puts a question and takes one line as its answer, which has to be a text. -/
  ask : Text → m (Except FileError Text)
  /-- Writes a result. -/
  out : Text → m Unit
  /-- Writes a report. -/
  err : Text → m Unit

end DesignRecipe

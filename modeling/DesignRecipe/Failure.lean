import DesignRecipe.Outline.Session
import DesignRecipe.Text.Raw

/-!
# Failures

What can go wrong around the reading of an outline: with files, names, settings and
the outline itself.
-/

namespace DesignRecipe

/-- What can go wrong with a file, or with the input. -/
inductive FileError
  | notFound
  | notADirectory
  | isADirectory
  | nameTooLong
  /-- The name holds a character that no name may hold. -/
  | badName
  /-- The bytes that have been read are no text. -/
  | notText
  /-- Anything else that the system reports. -/
  | other (message : Text)
deriving DecidableEq, Repr

/-- The wording of a file error, with the system's number where it has one. -/
def FileError.message : FileError → Text
  | .notFound => "No such file or directory (os error 2)"
  | .notADirectory => "Not a directory (os error 20)"
  | .isADirectory => "Is a directory (os error 21)"
  | .nameTooLong => "File name too long (os error 36)"
  | .badName => "file name contained an unexpected NUL byte"
  | .notText => "stream did not contain valid UTF-8"
  | .other message => message

/-- **What can go wrong.** -/
inductive Failure
  /-- A file could not be written. -/
  | io (error : FileError)
  | fileRead (path : RawText) (error : FileError)
  /-- The name of an outline file is no text, or does not end as it should. -/
  | invalidOutlinePath (path : RawText)
  /-- The outline stopped its reading. -/
  | aborted (abort : Outline.Abort)
  | unknownBackend (name : Text)
  /-- The settings ask for levels of no width. -/
  | zeroIndent
  /-- The text of the settings is malformed, or a value in it has the wrong type. -/
  | malformedSettings
  /-- The settings hold a number that their format cannot express. -/
  | unwritableSettings
deriving DecidableEq, Repr

namespace Failure

/-- **The wording of a failure.** -/
def message : Failure → Text
  | .io e => "IO error: " ++ e.message
  | .fileRead path e => "Failed to read file " ++ RawText.shown path ++ ": " ++ e.message
  | .invalidOutlinePath path =>
    "Invalid outline path " ++ RawText.shown path ++ ": name must end with \".oln.py\""
  | .aborted a =>
    "Critical parse error at line " ++ Text.ofNat a.critical.line ++ ": " ++ a.critical.message
  | .unknownBackend name => "Unknown output backend: " ++ name
  | .zeroIndent => "Invalid configuration: parser.indent_size must be at least 1"
  | .malformedSettings => "Failed to parse configuration: malformed text or wrong type"
  | .unwritableSettings => "Failed to serialize configuration: number out of range"

/-- The wording of a failure followed by the wording of its cause, if it has one. -/
def messageWithCause : Failure → Text
  | .io e => message (.io e) ++ ": " ++ e.message
  | .fileRead path e => message (.fileRead path e) ++ ": " ++ e.message
  | f => f.message

end Failure

end DesignRecipe

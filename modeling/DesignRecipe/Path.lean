import DesignRecipe.Text.Raw

/-!
# Paths

A path is a raw text of names separated by slashes. Repeated slashes, slashes at the end
and the name `.` say nothing, except that a `.` in front stands for itself.
-/

namespace DesignRecipe.Path

/-- What stands between the names of a path. -/
@[match_pattern] abbrev slash : RawChar := .char '/'

/-- The name that stays where it is. -/
abbrev dot : RawText := [.char '.']

/-- The name that leads back. -/
abbrev dots : RawText := [.char '.', .char '.']

/-- The names of a path between its slashes, empty ones included. -/
def names : RawText → List RawText
  | [] => [[]]
  | c :: rest =>
    if c = slash then [] :: names rest
    else
      match names rest with
      | [] => [[c]]
      | name :: more => (c :: name) :: more

/-- Drops from a reversed path what says nothing at its end. The root stays. -/
def dropIdle : RawText → RawText
  | slash :: c :: rest => dropIdle (c :: rest)
  | .char '.' :: slash :: rest => dropIdle (slash :: rest)
  | path => path

/-- **The last name of a path**, if it names a file or directory by itself. -/
def fileName? (path : RawText) : Option RawText :=
  let name := ((dropIdle path.reverse).takeWhile (· != slash)).reverse
  if name = [] ∨ name = dot ∨ name = dots then none else some name

/-- **The path before the last name**, if there is a name. -/
def parent? (path : RawText) : Option RawText :=
  let kept := dropIdle path.reverse
  if kept = [] ∨ kept = [slash] then none
  else some (dropIdle (kept.dropWhile (· != slash))).reverse

/-- **A name below a directory.** -/
def join (dir name : RawText) : RawText :=
  if dir = [] ∨ dir.getLast? = some slash then dir ++ name else dir ++ [slash] ++ name

end DesignRecipe.Path

import DesignRecipe.Python.Suite

/-!
# Backends

A backend turns recipes into a stub and a test file for one language. It is selected by
name.
-/

namespace DesignRecipe

/-- The languages that stubs and tests are written in. -/
inductive Backend
  | python
deriving DecidableEq, Repr

namespace Backend

/-- **The backend with a name**, in any ASCII case. -/
def ofName? (name : Text) : Option Backend :=
  let lowered := name.map Char.toLower
  if lowered = ['p', 'y', 't', 'h', 'o', 'n'] ∨ lowered = ['p', 'y'] then some .python else none

/-- The language of a backend. -/
def language : Backend → Text
  | .python => "Python 3"

/-- What follows the module name in the name of a stub. -/
def stubSuffix : Backend → Text
  | .python => ['.', 'p', 'y']

/-- What follows the module name in the name of a test file. -/
def testsSuffix : Backend → Text
  | .python => ['_', 't', 'e', 's', 't', 's', '.', 'p', 'y']

/-- The stub of recipes. -/
def stub (b : Backend) (t : Template) (rs : List Recipe) : Text :=
  match b with
  | .python => Python.stub t rs

/-- The test file of recipes that are imported from a module. -/
def tests (b : Backend) (rs : List Recipe) (module : Text) : Text :=
  match b with
  | .python => Python.suite rs module

end Backend

end DesignRecipe

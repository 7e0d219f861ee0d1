import DesignRecipe.Json.Encoding
import DesignRecipe.OutlineFile
import DesignRecipe.Settings.Basic

/-!
# What is made from an outline

The two files made from one outline: the stub and its tests. They are made as texts
first, and written only when asked to.
-/

namespace DesignRecipe

/-- A file to be written. -/
structure Artifact where
  path : RawText
  contents : Text
deriving DecidableEq, Repr

/-- What is made from one outline. -/
structure Generation where
  /-- The path of the outline. -/
  source : RawText
  module : Text
  stub : Artifact
  tests : Artifact
  recipes : List Recipe
  diagnostics : List Diagnostic

namespace Generation

/-- What is made from an outline that has been read, for a directory. -/
def ofOutput (template : Template) (backend : Backend) (source : RawText) (module : Text)
    (dir : RawText) (o : Outline.Output) : Generation where
  source := source
  module := module
  stub :=
    ⟨Path.join dir (RawText.ofText (module ++ backend.stubSuffix)),
      backend.stub template o.recipes⟩
  tests :=
    ⟨Path.join dir (RawText.ofText (module ++ backend.testsSuffix)),
      backend.tests o.recipes module⟩
  recipes := o.recipes
  diagnostics := o.diagnostics

/-- The files, in the order in which they are written. -/
def artifacts (g : Generation) : List Artifact := [g.stub, g.tests]

/-- **A generation as JSON**, without the texts of the files. There is none where a path is
no text. -/
def json? (g : Generation) : Option Json := do
  let source ← RawText.text? g.source
  let stub ← RawText.text? g.stub.path
  let tests ← RawText.text? g.tests.path
  return .object
    [("source", .string source),
     ("module", .string g.module),
     ("stub", .object [("path", .string stub)]),
     ("tests", .object [("path", .string tests)]),
     ("functions", .array (g.recipes.map Json.ofRecipe)),
     ("diagnostics", .array (g.diagnostics.map Json.ofDiagnostic))]

/-- The module of an outline and the backend for it, which are settled before the
outline is read. -/
def plan (settings : Settings) (path : RawText) : Except Failure (Text × Backend) := do
  let module ← OutlineFile.moduleName path
  let backend ← settings.backend?
  return (module, backend)

/-- **Makes the files of an outline**, without writing them. -/
def make {m : Type → Type} [Monad m] [Host m] (settings : Settings) (dir? : Option RawText)
    (path : RawText) : m (Except Failure Generation) := do
  match plan settings path with
  | .error f => return .error f
  | .ok (module, backend) =>
    match ← OutlineFile.read settings.options path with
    | .error f => return .error f
    | .ok output =>
      let dir ← OutlineFile.outputDirectory path dir?
      return .ok (ofOutput settings.template backend path module dir output)

end Generation

/-- **Writes a file.** -/
def Artifact.write {m : Type → Type} [Monad m] [Host m] (a : Artifact) :
    m (Except Failure Unit) := do
  return (← Host.write a.path a.contents).mapError .io

end DesignRecipe

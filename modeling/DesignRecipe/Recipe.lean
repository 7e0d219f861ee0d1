import DesignRecipe.Value.Basic

/-!
# Design recipes

The record of one function as its design recipe describes it: the contract, the
purpose, the effects, the worked examples and the outline of the body.
-/

namespace DesignRecipe

/-- A channel that a function uses besides its arguments and its result. -/
inductive SideEffect
  | console
  | file
deriving DecidableEq, Repr

/-- One comment of a body outline and how deeply it is nested. -/
structure OutlineEntry where
  text : Text
  level : Nat
deriving DecidableEq, Repr

/-- A worked example: the arguments, the expected result and what is said about it. -/
structure Example where
  args : List Value
  expected : Value
  explanation : Option Text

/-- A part that a recipe lacks. -/
inductive Gap
  | purpose
  | argumentNames
  | bodyOutline
deriving DecidableEq, Repr

/-- The name of a part that a recipe lacks. -/
def Gap.name : Gap → Text
  | .purpose => "purpose"
  | .argumentNames => "argument names"
  | .bodyOutline => "body outline"

/-- **All that is known about one function.** -/
structure Recipe where
  name : Text
  argTypes : List Text
  returnType : Text
  purpose : Option Text
  /-- The names of the arguments that have one so far. -/
  argNames : List (Option Text)
  returnName : Option Text
  /-- The lines of the recipe as they are repeated in the stub. -/
  lines : List Text
  inputs : Option Text
  outputs : Option Text
  sideEffects : List SideEffect
  examples : List Example
  outline : List OutlineEntry

namespace Recipe

/-- The argument types that a list of tags declares: a lone `None`, in any case,
declares that there are no arguments. -/
def declaredTypes : List Text → List Text
  | [tag] => if Text.equalsIgnoringCase tag ['N', 'o', 'n', 'e'] then [] else [tag]
  | tags => tags

/-- The recipe of a function of which only the contract is known. -/
def ofContract (name : Text) (tags : List Text) (returnType : Text) : Recipe where
  name := name
  argTypes := declaredTypes tags
  returnType := returnType
  purpose := none
  argNames := List.replicate (declaredTypes tags).length none
  returnName := none
  lines := []
  inputs := none
  outputs := none
  sideEffects := []
  examples := []
  outline := []

/-- The number of arguments. -/
def arity (r : Recipe) : Nat := r.argTypes.length

/-- **The parts that the recipe lacks.** -/
def gaps (r : Recipe) : List Gap :=
  (if r.purpose.isNone then [.purpose] else []) ++
  (if r.argNames.any Option.isNone then [.argumentNames] else []) ++
  (if r.outline.isEmpty then [.bodyOutline] else [])

/-- Whether the recipe lacks nothing. -/
def isComplete (r : Recipe) : Bool := r.gaps.isEmpty

/-- The name made up for the argument at a position, counted from zero, from its
type. -/
def generatedName (tag : Text) (position : Nat) : Text :=
  tag ++ "_val_" ++ Text.ofNat (position + 1)

/-- The names of arguments from a position on, made up where they have none. -/
def namesFrom : Nat → List (Option Text) → List Text → List Text
  | position, name :: names, tag :: tags =>
    name.getD (generatedName tag position) :: namesFrom (position + 1) names tags
  | _, _, _ => []

/-- **The parameters of the function**, in order. -/
def parameters (r : Recipe) : List Text := namesFrom 0 r.argNames r.argTypes

end Recipe

end DesignRecipe

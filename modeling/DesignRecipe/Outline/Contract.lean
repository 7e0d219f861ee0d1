import DesignRecipe.Outline.Payload

/-!
# Contract lines

A contract names a function, the types of its arguments, and after an arrow the type
of its result. Colons are decoration: they count as blanks.
-/

namespace DesignRecipe.Outline

/-- What a contract says. -/
structure Contract where
  name : Text
  argTypes : List Text
  returnType : Text
deriving DecidableEq, Repr

namespace Contract

/-- The words of a payload, colons being blanks. -/
def wordsOf (payload : Text) : List Piece :=
  Text.words (payload.map fun c => if c = ':' then ' ' else c)

/-- The column in a payload that a missing arrow is reported at: the second-to-last
word, or the only one, or the end if there is no word. -/
def arrowColumn (payload : Text) (words : List Piece) : Nat :=
  match words.reverse with
  | _ :: word :: _ => word.column
  | [word] => word.column
  | [] => payload.length

/-- Splits words before the last two. -/
def splitLastTwo : List Text → Option (List Text × Text × Text)
  | [] => none
  | [_] => none
  | [a, b] => some ([], a, b)
  | a :: rest => (splitLastTwo rest).map fun (front, b, c) => (a :: front, b, c)

/-- **Reads the words of a contract**, or rejects them: a name, the argument types, an
arrow and the result type. -/
def ofWords? (words : List Text) : Option Contract :=
  match splitLastTwo words with
  | some (name :: argTypes, before, returnType) =>
    if before = arrow then some ⟨name, argTypes, returnType⟩ else none
  | _ => none

/-- Reads a contract from a payload, or tells where its arrow is missing. -/
def read (payload : Payload) : Except Finding Contract :=
  let words := wordsOf payload.text
  match ofWords? (words.map Piece.text) with
  | some contract => .ok contract
  | none =>
    .error ⟨payload.column + arrowColumn payload.text words, .contractWithoutArrow⟩

/-- The recipe that starts with a contract. -/
def recipe (c : Contract) : Recipe := Recipe.ofContract c.name c.argTypes c.returnType

end Contract

end DesignRecipe.Outline

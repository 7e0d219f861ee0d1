import DesignRecipe.Outline.Payload

/-!
# Example lines

An example line gives the arguments of a call, an arrow and the expected result, and
may explain them in a comment. A value that is missing or not accepted is reported and
counts as absent, so that one bad value costs nothing but itself.
-/

namespace DesignRecipe.Outline.ExampleLine

/-- Splits a text at its first arrow outside of double quotes. The flag tells whether
the text starts inside of quotes. -/
def splitArrow : Bool → Text → Option (Text × Text)
  | _, [] => none
  | quoted, c :: rest =>
    if !quoted && arrow.isPrefixOf (c :: rest) then some ([], rest.drop 1)
    else
      (splitArrow (if c = '"' then !quoted else quoted) rest).map fun (before, after) =>
        (c :: before, after)

/-- The value of one place of an example. The values of its side of the arrow start at
the column `start` and end at `stop`. -/
def valueAt (recognized : List Text) (slot : Slot) (tag : Text) (start stop : Nat) :
    Option Piece → Value × List Finding
  | none => (.none, [⟨stop, .missingValue slot⟩])
  | some token =>
    match Coercion.coerce recognized token.text tag with
    | .ok value => (value, [])
    | .error rejection => (.none, [⟨start + token.column, .rejectedValue rejection⟩])

/-- The values of consecutive places from a position on, each with its type. -/
def valuesAt (recognized : List Text) (start stop : Nat) :
    Nat → List Text → List (Option Piece) → List Value × List Finding
  | position, tag :: tags, slots =>
    let (value, found) :=
      valueAt recognized (.argument position) tag start stop (slots.head?.getD none)
    let (values, more) := valuesAt recognized start stop (position + 1) tags slots.tail
    (value :: values, found ++ more)
  | _, [], _ => ([], [])

/-- The repairs to values that start at a column, as findings on the line. -/
def repairsAt (start : Nat) (tokens : Tokens) : List Finding :=
  tokens.issues.map fun issue => ⟨start + issue.column, .repaired issue.repair⟩

/-- The arguments of an example, from the text before its arrow that starts at a
column. -/
def argumentsOf (recognized argTypes : List Text) (column : Nat) (before : Text) :
    List Value × List Finding :=
  let start := column + Text.leadingBlanks before
  let tokens := tokenize (Text.trim before) argTypes.length
  let (args, found) :=
    valuesAt recognized start (column + (Text.trimRight before).length) 0 argTypes tokens.slots
  (args, found ++ repairsAt start tokens)

/-- The result of an example, from the text after its arrow that starts at a column. -/
def resultOf (recognized : List Text) (returnType : Text) (column : Nat) (after : Text) :
    Value × List Finding :=
  let start := column + Text.leadingBlanks after
  let tokens := tokenize (Text.trim after) 1
  let (expected, found) :=
    valueAt recognized .returnValue returnType start (column + after.length)
      (tokens.slots.head?.getD none)
  (expected, found ++ repairsAt start tokens)

/-- The example that a payload gives a function with the types of its contract, if the
payload has an arrow, and what was found wrong with it. -/
def read (recognized argTypes : List Text) (returnType : Text) (payload : Payload) :
    Option Example × List Finding :=
  let comment := payload.text.dropWhile (· != '#')
  let body :=
    if comment.isEmpty then payload.text
    else Text.trimRight (payload.text.takeWhile (· != '#'))
  match splitArrow false body with
  | none => (none, [⟨payload.column + body.length, .exampleWithoutArrow⟩])
  | some (before, after) =>
    let (args, found) := argumentsOf recognized argTypes payload.column before
    let (expected, more) :=
      resultOf recognized returnType (payload.column + before.length + arrow.length) after
    (some
      { args := args
        expected := expected
        explanation := if comment.isEmpty then none else some (Text.trimRight comment) },
      found ++ more)

/-- Whether a payload says that there is no example. -/
def isNotApplicable (payload : Text) : Bool := Text.equalsIgnoringCase payload ['n', '/', 'a']

/-- **The recipe after an example line**, and what was found wrong with the line. -/
def apply (recognized : List Text) (r : Recipe) (payload : Payload) : Recipe × List Finding :=
  if isNotApplicable payload.text then (r, [])
  else
    let (read, findings) := read recognized r.argTypes r.returnType payload
    ({ r with examples := r.examples ++ read.toList }, findings)

end DesignRecipe.Outline.ExampleLine

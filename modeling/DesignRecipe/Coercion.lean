import DesignRecipe.Value.Literal

/-!
# Coercion

Reading one token as a value of its declared type. A recognized primitive type has a
reader of its own and may reject the token. Under any other tag a token is a literal
if it reads as one, and otherwise stands for its own text, so nothing is rejected.
-/

namespace DesignRecipe

/-- A token that is no value of its recognized type. -/
structure Rejection where
  token : Text
  tag : Text
deriving DecidableEq, Repr

/-- What is said about a rejected token. -/
def Rejection.message (r : Rejection) : Text :=
  "value '" ++ r.token ++ "' is not a valid " ++ r.tag

/-- The primitive types that have a reader of their own. -/
inductive Primitive
  | int
  | float
  | complex
  | str
  | chr
  | bool
deriving DecidableEq, Repr

namespace Primitive

/-- The tag of a primitive type. -/
def tag : Primitive → Text
  | .int => ['i', 'n', 't']
  | .float => ['f', 'l', 'o', 'a', 't']
  | .complex => ['c', 'o', 'm', 'p', 'l', 'e', 'x']
  | .str => ['s', 't', 'r']
  | .chr => ['c', 'h', 'r']
  | .bool => ['b', 'o', 'o', 'l']

/-- All primitive types. -/
def all : List Primitive := [.int, .float, .complex, .str, .chr, .bool]

/-- The primitive type with a tag, spelled exactly. -/
def ofTag? (t : Text) : Option Primitive := all.find? fun p => p.tag = t

end Primitive

namespace Coercion

/-- A text without its underscores. -/
def dropUnderscores (s : Text) : Text := s.filter (· != '_')

/-- Reads a double written with underscores anywhere. -/
def readFloat (s : Text) : Option Float := Decimal.read (dropUnderscores s)

/-! ### Complex numbers -/

/-- Takes one pair of parentheses off a text that has both. -/
def dropParentheses (s : Text) : Text :=
  match s with
  | '(' :: rest => if rest.getLast? = some ')' then rest.dropLast else s
  | _ => s

/-- Whether a sign at `c` joins two parts: it does not if it belongs to an exponent. -/
def joinsAt (previous c : Char) : Bool :=
  (c == '+' || c == '-') && !(previous == 'e' || previous == 'E')

/-- Splits a text before its last joining sign, the first character aside. -/
def splitAtSign : Text → Option (Text × Text)
  | [] => none
  | [_] => none
  | previous :: c :: rest =>
    match splitAtSign (c :: rest) with
    | some (before, after) => some (previous :: before, after)
    | none => if joinsAt previous c then some ([previous], c :: rest) else none

/-- Reads the imaginary part before its unit: a bare sign stands for one. -/
def readImaginary (s : Text) : Option Float :=
  if s = [] ∨ s = ['+'] then some 1
  else if s = ['-'] then some (-1)
  else readFloat s

/-- **Reads a complex number**: a real, an imaginary part with its unit `j`, or both
joined by a sign, in parentheses or not. -/
def readComplex (s : Text) : Option (Float × Float) :=
  let s := Text.trim (dropParentheses s)
  if s.getLast? = some 'j' ∨ s.getLast? = some 'J' then
    match splitAtSign s.dropLast with
    | some (before, after) =>
      match readFloat before, readImaginary after with
      | some re, some im => some (re, im)
      | _, _ => none
    | none => (readImaginary s.dropLast).map fun im => (0, im)
  else (readFloat s).map fun re => (re, 0)

/-! ### Strings -/

/-- Takes one pair of matching quotes off a text that has both. -/
def unquote (s : Text) : Text :=
  match s with
  | '"' :: rest => if rest.getLast? = some '"' then rest.dropLast else s
  | '\'' :: rest => if rest.getLast? = some '\'' then rest.dropLast else s
  | _ => s

/-! ### All types -/

/-- A literal, or the text itself. -/
def literalOrText (token : Text) : Value :=
  match Literal.read? token with
  | some value => value
  | none => .str token

/-- Reads a token as a value of a primitive type. -/
def readAs? (token : Text) : Primitive → Option Value
  | .int => Integer.read? (dropUnderscores (Text.trim token))
  | .float => (readFloat (Text.trim token)).map .float
  | .complex => (readComplex (Text.trim token)).map fun (re, im) => .complex re im
  | .str => some (.str (unquote token))
  | .chr =>
    match unquote token with
    | [c] => some (.str [c])
    | _ => none
  | .bool => some (.bool (token ≠ ['F', 'a', 'l', 's', 'e'] ∧ token ≠ []))

/-- **Reads a token as a value of the type declared by a tag.** `None` is the absent
value under every tag. A recognized tag without a reader of its own is read like one
that is not recognized. -/
def coerce (recognized : List Text) (token tag : Text) : Except Rejection Value :=
  if token = ['N', 'o', 'n', 'e'] then .ok .none
  else if tag ∈ recognized then
    match Primitive.ofTag? tag with
    | none => .ok (literalOrText token)
    | some p =>
      match readAs? token p with
      | some value => .ok value
      | none => .error ⟨token, tag⟩
  else .ok (literalOrText token)

end Coercion

end DesignRecipe

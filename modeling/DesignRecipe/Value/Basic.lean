import DesignRecipe.Text.Basic

/-!
# Example values

The values that a worked example passes to a function and expects from it.
-/

namespace DesignRecipe

/-- A value of an example. Integers that fit into 64 bits and wider ones are kept apart:
the wide ones are known by their digits only. -/
inductive Value
  /-- The absent value. It also stands for a value that could not be read. -/
  | none
  | bool (b : Bool)
  | int (i : Int64)
  /-- An integer outside the 64-bit range, as its decimal text. -/
  | bigInt (digits : Text)
  | float (x : Float)
  | complex (re im : Float)
  | str (s : Text)
  | list (items : List Value)
  | tuple (items : List Value)
  /-- The entries in the order written, a repeated key included. -/
  | dict (entries : List (Value × Value))

instance : Inhabited Value := ⟨.none⟩

/-- Whether a test compares the value within a tolerance rather than exactly. -/
def Value.isApproximate : Value → Bool
  | .float _ | .complex _ _ => true
  | _ => false

end DesignRecipe

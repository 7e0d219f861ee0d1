import DesignRecipe.Recipe
import DesignRecipe.Proofs.Value.Integer
import Mathlib.Data.List.Nodup
import Mathlib.Data.List.ReduceOption

/-!
# The parameters of a function

An argument without a name gets one that is made up from its type and its position. The position
stands at the end of such a name, in digits behind an underscore, so it can be read off again
whatever the type is (`Recipe.position_eq_of_generatedName_eq`), and two made-up names are never the
same.

A made-up name is not compared with the names that other arguments have, though, and any of them may
be just that name. This is the only way in which parameters come to be the same if the names do not
(`Recipe.nodup_parameters_iff`).
-/

namespace DesignRecipe

open Integer (isDigit_of_mem_ofNat digitsValue_ofNat)

namespace Recipe

/-! ### Names that are made up -/

/-- The digits at the end of a made-up name are those of the position. -/
theorem takeWhile_reverse_generatedName (tag : Text) (position : Nat) :
    (generatedName tag position).reverse.takeWhile Char.isDigit =
      (Text.ofNat (position + 1)).reverse := by
  have hdigits : ∀ c ∈ (Text.ofNat (position + 1)).reverse, c.isDigit = true := fun c hc =>
    isDigit_of_mem_ofNat (List.mem_reverse.mp hc)
  rw [generatedName, List.reverse_append, List.takeWhile_append_of_pos hdigits,
    List.reverse_append]
  exact List.append_nil _

/-- **Made-up names for different positions are different**, whatever the types are. -/
theorem position_eq_of_generatedName_eq {tag tag' : Text} {i j : Nat}
    (h : generatedName tag i = generatedName tag' j) : i = j := by
  have hdigits := congrArg (fun name => (name.reverse.takeWhile Char.isDigit).reverse) h
  simp only [takeWhile_reverse_generatedName, List.reverse_reverse] at hdigits
  have hvalue := congrArg Decimal.digitsValue hdigits
  rw [digitsValue_ofNat, digitsValue_ofNat] at hvalue
  omega

/-! ### Parameters by their positions -/

/-- The parameters from a position on, one by one. -/
theorem namesFrom_eq_mapIdx (position : Nat) (names : List (Option Text)) (tags : List Text) :
    namesFrom position names tags =
      (names.zip tags).mapIdx fun i x => x.1.getD (generatedName x.2 (position + i)) := by
  induction names generalizing position tags with
  | nil => simp [namesFrom]
  | cons name names ih =>
    cases tags with
    | nil => simp [namesFrom]
    | cons tag tags =>
      rw [namesFrom, ih, List.zip_cons_cons, List.mapIdx_cons]
      simp only [Nat.add_zero, Nat.add_assoc, Nat.add_comm 1]

variable {r : Recipe} {i : Nat}

/-- **A parameter is the name of its argument**, or made up if the argument has none. -/
theorem getElem?_parameters_eq_some {p : Text} : r.parameters[i]? = some p ↔
    ∃ slot tag, r.argNames[i]? = some slot ∧ r.argTypes[i]? = some tag ∧
      slot.getD (generatedName tag i) = p := by
  rw [parameters, namesFrom_eq_mapIdx, List.getElem?_mapIdx]
  simp only [Option.map_eq_some_iff, Prod.exists, List.getElem?_zip_eq_some, Nat.zero_add,
    and_assoc]

/-- The names that a recipe has are among its parameters, in order. -/
theorem reduceOption_sublist_namesFrom {names : List (Option Text)} {tags : List Text}
    (h : names.length ≤ tags.length) (position : Nat) :
    names.reduceOption.Sublist (namesFrom position names tags) := by
  induction names generalizing position tags with
  | nil => exact List.nil_sublist _
  | cons name names ih =>
    cases tags with
    | nil => exact absurd h (by simp)
    | cons tag tags =>
      have hrest := ih (Nat.le_of_succ_le_succ h) (position + 1)
      cases name with
      | none =>
        rw [List.reduceOption_cons_of_none]
        exact hrest.cons _
      | some name =>
        rw [List.reduceOption_cons_of_some]
        exact hrest.cons_cons name

/-- Names that do not repeat stand in one place each. -/
theorem ne_of_nodup_reduceOption {names : List (Option Text)} (h : names.reduceOption.Nodup)
    {j : Nat} {name name' : Text} (hij : i < j) (hi : names[i]? = some (some name))
    (hj : names[j]? = some (some name')) : name ≠ name' := by
  obtain ⟨hi, hname⟩ := List.getElem?_eq_some_iff.mp hi
  obtain ⟨hj, hname'⟩ := List.getElem?_eq_some_iff.mp hj
  rw [List.reduceOption, List.Nodup, List.pairwise_filterMap] at h
  exact List.pairwise_iff_getElem.mp h i j hi hj hij name hname name' hname'

/-- **The parameters are distinct exactly if the names are** and none of them is the one made up for
an argument without a name. -/
theorem nodup_parameters_iff (r : Recipe) (h : r.argNames.length = r.arity) :
    r.parameters.Nodup ↔ r.argNames.reduceOption.Nodup ∧
      ∀ i tag, r.argNames[i]? = some none → r.argTypes[i]? = some tag →
        some (generatedName tag i) ∉ r.argNames := by
  constructor
  · intro hnodup
    refine ⟨hnodup.sublist (reduceOption_sublist_namesFrom h.le 0), ?_⟩
    intro i tag hnone htag hmem
    obtain ⟨j, hj⟩ := List.mem_iff_getElem?.mp hmem
    have hlength : j < r.argTypes.length := (List.getElem?_eq_some_iff.mp hj).1.trans_eq h
    -- The made-up name is the parameter at both places.
    have hi : r.parameters[i]? = some (generatedName tag i) :=
      getElem?_parameters_eq_some.mpr ⟨none, tag, hnone, htag, rfl⟩
    have hj' : r.parameters[j]? = some (generatedName tag i) :=
      getElem?_parameters_eq_some.mpr ⟨_, _, hj, List.getElem?_eq_getElem hlength, rfl⟩
    obtain rfl : i = j :=
      (List.getElem?_inj (List.getElem?_eq_some_iff.mp hi).1 hnodup).mp (hi.trans hj'.symm)
    rw [hnone] at hj
    exact absurd hj (by simp)
  · rintro ⟨hnodup, hmadeUp⟩
    rw [List.nodup_iff_getElem?_ne_getElem?]
    intro i j hij hj heq
    obtain ⟨slot, tag, hslot, htag, hi⟩ := getElem?_parameters_eq_some.mp
      (heq.trans (List.getElem?_eq_getElem hj))
    obtain ⟨slot', tag', hslot', htag', hj⟩ := getElem?_parameters_eq_some.mp
      (List.getElem?_eq_getElem hj)
    rw [← hj] at hi
    rcases slot with _ | name <;> rcases slot' with _ | name'
    · exact hij.ne (position_eq_of_generatedName_eq hi)
    · have hname : generatedName tag i = name' := hi
      exact hmadeUp i tag hslot htag (hname ▸ List.mem_of_getElem? hslot')
    · have hname : generatedName tag' j = name := hi.symm
      exact hmadeUp j tag' hslot' htag' (hname ▸ List.mem_of_getElem? hslot)
    · exact ne_of_nodup_reduceOption hnodup hij hslot hslot' hi

/-- A function of three arguments, the second of which has no name yet. -/
def partlyNamed : Recipe :=
  { ofContract "f" ["int", "int", "str"] "int" with argNames := [some "n", none, some "int_val_1"] }

theorem nodup_parameters_iff_partlyNamed : partlyNamed.argNames.length = partlyNamed.arity ∧
    partlyNamed.parameters = ["n", "int_val_2", "int_val_1"] ∧ partlyNamed.parameters.Nodup := by
  have hlength : partlyNamed.argNames.length = partlyNamed.arity := rfl
  refine ⟨hlength, rfl, (nodup_parameters_iff partlyNamed hlength).mpr ⟨by decide, ?_⟩⟩
  intro i tag hnone htag
  obtain rfl : i = 1 := by
    rcases i with _ | _ | _ | i <;> simp [partlyNamed] at hnone
    rfl
  obtain rfl : ("int" : Text) = tag := Option.some_inj.mp htag
  decide

/-- **Names that do not repeat do not make parameters that do not**: the first argument may have the
name that is made up for the second one. -/
theorem not_nodup_parameters : ¬∀ r : Recipe, r.argNames.length = r.arity →
    r.argNames.reduceOption.Nodup → r.parameters.Nodup := fun h =>
  absurd
    (h { ofContract "f" ["int", "int"] "int" with argNames := [some "int_val_2", none] } rfl
      (by decide))
    (by decide)

end Recipe

end DesignRecipe

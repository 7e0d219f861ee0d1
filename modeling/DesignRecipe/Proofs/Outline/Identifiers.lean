import DesignRecipe.Proofs.Outline.Printable
import DesignRecipe.Proofs.Outline.Purpose
import DesignRecipe.Proofs.Text.Identifier

/-!
# Which parameters are identifiers

A name of an argument comes from a purpose, and then it has been made an identifier; or it is made
up, and then it starts with the type of the argument as the contract has it. A type is any word,
though, `[int]` as well as `int`, and what is added to it is made of word characters. So a made-up
name is an identifier exactly if the type is one (`Recipe.isIdentifier_generatedName_iff`), and the
parameters that are no identifiers are just the made-up names of types that are none
(`isIdentifier_parameters`).
-/

namespace DesignRecipe

namespace Recipe

/-! ### Made-up names and types -/

/-- **A made-up name is an identifier exactly if the type is one.** -/
theorem isIdentifier_generatedName_iff {tag : Text} (h : tag ≠ []) (position : Nat) :
    (generatedName tag position).IsIdentifier ↔ tag.IsIdentifier := by
  rw [generatedName, List.append_assoc]
  refine Text.isIdentifier_append_iff h
    (List.forall_mem_append.mpr ⟨List.all_eq_true.mp (by decide +kernel), ?_⟩)
  exact fun c hc => Text.isWordCharacter_of_isDigit (Integer.isDigit_of_mem_ofNat hc)

theorem declaredTypes_subset (tags : List Text) : declaredTypes tags ⊆ tags := by
  rw [declaredTypes.eq_def]
  split
  · split
    · exact List.nil_subset _
    · exact List.Subset.refl _
  · exact List.Subset.refl _

/-- **Where the names of a recipe come from**: each is an identifier, or made up for its argument
from a type that is not empty. -/
structure Named (r : Recipe) : Prop where
  length_argNames : r.argNames.length = r.arity
  argTypes : ∀ tag ∈ r.argTypes, tag ≠ []
  argNames : ∀ i (tag name : Text), r.argTypes[i]? = some tag → r.argNames[i]? = some (some name) →
    name.IsIdentifier ∨ name = generatedName tag i

variable {r : Recipe}

/-- A parameter is a name or made up here and now. -/
theorem Named.parameters (h : r.Named) {i : Nat} {tag p : Text} (htag : r.argTypes[i]? = some tag)
    (hp : r.parameters[i]? = some p) : p.IsIdentifier ∨ p = generatedName tag i := by
  obtain ⟨slot, tag', hslot, htag', rfl⟩ := getElem?_parameters_eq_some.mp hp
  obtain rfl := Option.some_inj.mp (htag.symm.trans htag')
  cases slot with
  | none => exact .inr rfl
  | some name => exact h.argNames i tag name htag hslot

end Recipe

namespace Outline

open Session

/-! ### What every line keeps -/

/-- **A purpose hands out identifiers**, and makes up names where there are none. -/
theorem Purpose.named_apply {r : Recipe} (h : r.Named) (purpose : Text) :
    (apply r purpose).Named where
  length_argNames := by
    have hlength := h.length_argNames
    simpa [apply, length_complete, length_assign, Recipe.arity] using hlength
  argTypes := h.argTypes
  argNames := by
    intro i tag name htag hname
    obtain ⟨slot, tag', hslot, htag', heq⟩ :=
      (getElem?_argNames_apply_eq_some h.length_argNames purpose).mp hname
    obtain rfl := Option.some_inj.mp (htag.symm.trans htag')
    obtain rfl := Option.some_inj.mp heq
    cases hspan : ((spans purpose).map Text.identifier)[i]? with
    | some name =>
      obtain ⟨span, -, rfl⟩ := List.mem_map.mp (List.mem_of_getElem? hspan)
      exact .inl (Text.isIdentifier_identifier span)
    | none =>
      cases slot with
      | none => exact .inr rfl
      | some name => exact h.argNames i tag name htag hslot

namespace Session

/-- A line of a section keeps it where names come from. -/
theorem named_readSection {r : Recipe} (h : r.Named) (options : Options) (heading : Heading)
    (text : Text) : (readSection options heading text r).1.Named := by
  cases heading with
  | purpose =>
    obtain ⟨hlength, htypes, hnames⟩ := Purpose.named_apply h (Payload.ofLine text).text
    exact ⟨hlength, htypes, hnames⟩
  | «example» =>
    simp only [readSection, ExampleLine.fst_apply]
    exact ⟨h.length_argNames, h.argTypes, h.argNames⟩
  | _ => exact ⟨h.length_argNames, h.argTypes, h.argNames⟩

/-- A contract names no argument, and its types are words. -/
theorem named_recipe {text : Text} {c : Contract}
    (h : Contract.read (Payload.ofLine text) = .ok c) : (record text c.recipe).Named where
  length_argNames := List.length_replicate
  argTypes := by
    intro tag htag
    obtain ⟨w, hw, rfl⟩ := Contract.mem_words_of_read h tag
      (List.mem_cons_of_mem _ (Recipe.declaredTypes_subset _ htag))
    obtain ⟨c, -, hhead, -⟩ := Contract.startsIn_of_mem_wordsOf w hw
    rintro hnil
    rw [hnil] at hhead
    exact absurd hhead (by simp)
  argNames i tag name _ hname :=
    absurd (List.eq_of_mem_replicate (List.mem_of_getElem? hname)) (by simp)

end Session

/-- **Every name of a text is an identifier or made up.** -/
theorem forall_named {options : Options} {text : Text} {out : Output}
    (h : read options text = .ok out) : ∀ r ∈ out.recipes, r.Named :=
  forall_recipes h fun _ _ _ _ hcurrent => forall_currentAfter (fun _ => named_recipe)
    (fun _ _ hr => named_readSection hr options _ _)
    (fun _ _ hr => ⟨hr.length_argNames, hr.argTypes, hr.argNames⟩) hcurrent

/-- **The parameters that are no identifiers are the made-up names of types that are none.** For
each argument of a recipe that is read from a text there is a parameter, which is not empty. It is
an identifier, unless the argument has a made-up name and its type is no identifier; and then it is
none. -/
theorem isIdentifier_parameters {options : Options} {text : Text} {out : Output} {r : Recipe}
    (h : read options text = .ok out) (hr : r ∈ out.recipes) :
    r.parameters.length = r.arity ∧
      ∀ i (tag p : Text), r.argTypes[i]? = some tag → r.parameters[i]? = some p →
        p ≠ [] ∧ (¬p.IsIdentifier ↔ p = Recipe.generatedName tag i ∧ ¬tag.IsIdentifier) := by
  have hnamed := forall_named h r hr
  refine ⟨?_, fun i tag p htag hp => ?_⟩
  · rw [Recipe.parameters, Recipe.length_namesFrom, hnamed.length_argNames, Recipe.arity,
      Nat.min_self]
  · have hmadeUp := Recipe.isIdentifier_generatedName_iff
      (hnamed.argTypes tag (List.mem_of_getElem? htag)) i
    have hfrom := hnamed.parameters htag hp
    constructor
    · rintro rfl
      rcases hfrom with ⟨⟨c, hc, -⟩, -⟩ | hnil
      · exact absurd hc (by simp)
      · simp [Recipe.generatedName] at hnil
    · constructor
      · intro hnot
        obtain rfl := hfrom.resolve_left hnot
        exact ⟨rfl, fun htag => hnot (hmadeUp.mpr htag)⟩
      · rintro ⟨rfl, hnot⟩ hidentifier
        exact hnot (hmadeUp.mp hidentifier)

/-- A contract with a type in brackets, and a purpose that names one of two arguments. -/
def bracketedTypes : Text :=
  "\"\"\"\nCONTRACT | f : [int] [str] -> int\nPURPOSE | Sums up `1st list`.\n\"\"\"\n# sum\n"

theorem isIdentifier_parameters_bracketedTypes : ∃ out r,
    read .standard bracketedTypes = .ok out ∧ r ∈ out.recipes ∧
      r.parameters = ["_1st_list".toList, "[str]_val_2".toList] ∧
      Text.IsIdentifier "_1st_list" ∧ ¬Text.IsIdentifier "[str]_val_2" := by
  obtain ⟨out, r, hout, hr, htypes, hparameters⟩ : ∃ out r,
      read .standard bracketedTypes = .ok out ∧ r ∈ out.recipes ∧
        r.argTypes = ["[int]".toList, "[str]".toList] ∧
        r.parameters = ["_1st_list".toList, "[str]_val_2".toList] :=
    ⟨_, _, rfl, List.mem_singleton_self _, rfl, by decide +kernel⟩
  obtain ⟨-, hall⟩ := isIdentifier_parameters hout hr
  rw [htypes, hparameters] at hall
  refine ⟨out, r, hout, hr, hparameters, ?_, ?_⟩
  · by_contra hnot
    exact absurd ((hall 0 _ _ rfl rfl).2.mp hnot).1 (by decide)
  · exact (hall 1 _ _ rfl rfl).2.mpr ⟨by decide, by decide +kernel⟩

/-- **Not every parameter is an identifier**: a made-up name starts with the type as it stands in
the contract. -/
theorem not_isIdentifier_parameters : ¬∀ (options : Options) (text : Text) (out : Output)
    (r : Recipe) (p : Text), read options text = .ok out → r ∈ out.recipes → p ∈ r.parameters →
      p.IsIdentifier := by
  obtain ⟨out, r, hout, hr, hp⟩ : ∃ out r, read .standard bracketedTypes = .ok out ∧
      r ∈ out.recipes ∧ "[str]_val_2".toList ∈ r.parameters :=
    ⟨_, _, rfl, List.mem_singleton_self _, by decide +kernel⟩
  exact fun h => absurd (h .standard _ out r _ hout hr hp) (by decide +kernel)

end Outline

end DesignRecipe

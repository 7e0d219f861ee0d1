import DesignRecipe.Proofs.Value.Integer
import DesignRecipe.Text.Identifier
import Mathlib.Data.List.Basic

/-!
# Identifiers

The identifier that is made from a name is one, whatever the name is (`isIdentifier_identifier`):
each character is a word character or has become an underscore, and where the first one is neither
a letter nor an underscore there is an underscore in front of it.

The names that are left alone are the identifiers (`identifier_eq_self_iff`), so making an
identifier once more changes nothing.

Word characters may be added at the end of an identifier, and this is all that they do: the text in
front of them decides (`isIdentifier_append_iff`).
-/

namespace DesignRecipe.Text

/-- **An identifier**: it starts with a letter or an underscore, and is made of word characters. -/
structure IsIdentifier (t : Text) : Prop where
  head : ∃ c ∈ t.head?, startsIdentifier c = true
  word : ∀ c ∈ t, isWordCharacter c = true

instance (t : Text) : Decidable (IsIdentifier t) :=
  decidable_of_iff (t.head?.any startsIdentifier = true ∧ t.all isWordCharacter = true)
    ⟨fun h => ⟨(Option.any_eq_true _ _).mp h.1, List.all_eq_true.mp h.2⟩,
      fun h => ⟨(Option.any_eq_true _ _).mpr h.head, List.all_eq_true.mpr h.word⟩⟩

theorem isWordCharacter_underscore : isWordCharacter '_' = true := by decide +kernel

theorem isWordCharacter_of_isDigit {c : Char} (h : c.isDigit = true) :
    isWordCharacter c = true := by
  have hdigits : ∀ n < 10, isWordCharacter (Nat.digitChar n) = true := by decide +kernel
  obtain ⟨hlt, hchar⟩ := Integer.digitChar_of_isDigit h
  exact hchar ▸ hdigits _ hlt

/-- **The identifier made from a name is an identifier.** -/
theorem isIdentifier_identifier (name : Text) : IsIdentifier (identifier name) := by
  have hword (kept : Text) :
      ∀ d ∈ kept.map (fun c => if isWordCharacter c then c else '_'), isWordCharacter d = true := by
    intro d hd
    obtain ⟨c, -, rfl⟩ := List.mem_map.mp hd
    split
    · assumption
    · exact isWordCharacter_underscore
  rw [identifier]
  generalize name.filter (· != '\'') = kept
  by_cases hstarts : kept.head?.any startsIdentifier = true
  · rw [if_pos hstarts]
    refine ⟨?_, hword kept⟩
    obtain _ | ⟨c, rest⟩ := kept
    · exact absurd hstarts (by decide)
    · refine ⟨_, rfl, ?_⟩
      beta_reduce
      split
      · exact hstarts
      · decide
  · rw [if_neg hstarts]
    exact ⟨⟨'_', rfl, by decide⟩,
      List.forall_mem_cons.mpr ⟨isWordCharacter_underscore, hword kept⟩⟩

/-- The marks that prose has in its names and between its words are no word characters. -/
theorem isWordCharacter_of_mem_marks {c : Char} (h : c ∈ ['\'', ' ', '-', '`']) :
    isWordCharacter c = false := by
  have hmarks : ['\'', ' ', '-', '`'].all (fun c => !isWordCharacter c) = true := by
    decide +kernel
  simpa using List.all_eq_true.mp hmarks c h

/-- **The names that are left alone are the identifiers.** -/
theorem identifier_eq_self_iff (name : Text) : identifier name = name ↔ IsIdentifier name := by
  constructor
  · intro h
    exact h ▸ isIdentifier_identifier name
  · rintro ⟨hstart, hword⟩
    have hkept : name.filter (· != '\'') = name := by
      refine List.filter_eq_self.mpr fun c hc => ?_
      rw [bne_iff_ne]
      rintro rfl
      exact absurd (hword _ hc) (by simp [isWordCharacter_of_mem_marks])
    have hmap : name.map (fun c => if isWordCharacter c then c else '_') = name :=
      (List.map_congr_left fun c hc => if_pos (hword c hc)).trans (List.map_id' name)
    simp only [identifier, hkept, hmap]
    rw [if_pos ((Option.any_eq_true _ _).mpr hstart), List.nil_append]

/-- **An identifier that is made is sound and stable.** It starts with an underscore or a letter,
and has nothing but word characters, so none of the marks that prose has between its words. Making
an identifier of it once more changes nothing. -/
theorem identifier_stable (name : Text) :
    (∃ c rest, identifier name = c :: rest ∧ (c = '_' ∨ isAlphabetic c = true)) ∧
      (∀ c ∈ identifier name, isWordCharacter c = true) ∧
      (∀ c ∈ ['\'', ' ', '-', '`'], c ∉ identifier name) ∧
      identifier (identifier name) = identifier name := by
  have hidentifier := isIdentifier_identifier name
  refine ⟨?_, hidentifier.word, fun c hc hmem => ?_, (identifier_eq_self_iff _).mpr hidentifier⟩
  · obtain ⟨c, hc, hstarts⟩ := hidentifier.head
    obtain ⟨rest, hrest⟩ := List.head?_eq_some_iff.mp hc
    exact ⟨c, rest, hrest, by simpa [startsIdentifier] using hstarts⟩
  · exact absurd (hidentifier.word c hmem) (by simp [isWordCharacter_of_mem_marks hc])

/-- **Word characters at the end** leave it to the text in front of them whether it is an
identifier. -/
theorem isIdentifier_append_iff {s t : Text} (hs : s ≠ [])
    (ht : ∀ c ∈ t, isWordCharacter c = true) : IsIdentifier (s ++ t) ↔ IsIdentifier s := by
  have hhead : (s ++ t).head? = s.head? := List.head?_append_of_ne_nil s hs
  constructor
  · rintro ⟨hstart, hword⟩
    exact ⟨hhead ▸ hstart, (List.forall_mem_append.mp hword).1⟩
  · rintro ⟨hstart, hword⟩
    exact ⟨hhead ▸ hstart, List.forall_mem_append.mpr ⟨hword, ht⟩⟩

end DesignRecipe.Text

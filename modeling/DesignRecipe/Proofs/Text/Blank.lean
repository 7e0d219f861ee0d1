import DesignRecipe.Text.Basic
import DesignRecipe.Text.WordCharacter
import Mathlib.Data.List.TakeWhile

/-!
# What blanks are not

No blank character is a letter or a numeral, of ASCII or of any other script. So a blank
ends a word and a number, and the readers may pass over blanks without losing anything.
The tables of the classes settle this: the blank characters are few enough to be looked
up one by one.
-/

namespace DesignRecipe.Text

/-! ### Blank characters one by one -/

/-- A member of ascending ranges lies in one of them. -/
theorem exists_range_of_inRanges {ranges : List (Nat × Nat)} {n : Nat}
    (h : inRanges ranges n = true) : ∃ r ∈ ranges, r.1 ≤ n ∧ n ≤ r.2 := by
  induction ranges with
  | nil => simp [inRanges] at h
  | cons r ranges ih =>
    obtain ⟨first, last⟩ := r
    simp only [inRanges, Bool.and_eq_true, decide_eq_true_eq, Bool.or_eq_true] at h
    obtain ⟨hfirst, hlast | hrest⟩ := h
    · exact ⟨_, List.mem_cons_self, hfirst, hlast⟩
    · obtain ⟨r, hr, hn⟩ := ih hrest
      exact ⟨r, List.mem_cons_of_mem _ hr, hn⟩

/-- The code points of the blank characters. -/
def blankCodes : List Nat := blankRanges.flatMap fun r => List.range' r.1 (r.2 - r.1 + 1)

/-- What holds of the blank characters one by one holds of every blank. -/
theorem forall_isBlank {P : Char → Prop} (table : ∀ n ∈ blankCodes, P (Char.ofNat n)) {c : Char}
    (h : isBlank c = true) : P c := by
  obtain ⟨r, hr, hfirst, hlast⟩ := exists_range_of_inRanges h
  have hmem : c.toNat ∈ blankCodes :=
    List.mem_flatMap.mpr ⟨r, hr, List.mem_range'_1.mpr ⟨hfirst, by omega⟩⟩
  simpa only [Char.ofNat_toNat] using table _ hmem

/-- **A blank is no letter and no numeral.** -/
theorem isAlphanumeric_of_isBlank {c : Char} (h : isBlank c = true) :
    isAlphanumeric c = false :=
  forall_isBlank (P := fun c => isAlphanumeric c = false) (by decide +kernel) h

/-! ### Runs of blanks -/

/-- A text that is made of blanks only. -/
def Blank (s : Text) : Prop := ∀ c ∈ s, isBlank c = true

theorem Blank.nil : Blank [] := fun _ h => absurd h List.not_mem_nil

theorem Blank.space : Blank [' '] := by
  intro c hc
  rw [List.mem_singleton.mp hc]
  decide

theorem Blank.append {s t : Text} (hs : Blank s) (ht : Blank t) : Blank (s ++ t) := fun c hc =>
  (List.mem_append.mp hc).elim (hs c) (ht c)

/-- Blanks at the start are passed over. -/
theorem trimLeft_append {s : Text} (hs : Blank s) (t : Text) : trimLeft (s ++ t) = trimLeft t :=
  List.dropWhile_append_of_pos hs

/-- A text that starts with no blank is left as it is. -/
theorem trimLeft_cons {c : Char} (hc : isBlank c = false) (s : Text) :
    trimLeft (c :: s) = c :: s :=
  List.dropWhile_cons_of_neg (by simp [hc])

theorem trimLeft_eq_nil {s : Text} (hs : Blank s) : trimLeft s = [] :=
  List.dropWhile_eq_nil_iff.mpr hs

end DesignRecipe.Text

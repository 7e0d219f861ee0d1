import DesignRecipe.Outline.State
import DesignRecipe.Proofs.Text.Trimming
import Mathlib.Algebra.Ring.Parity

/-!
# The states of an outline

The state depends on nothing but the lines read, so its laws are laws of a machine on
lines alone (`State.after`). A delimiter is the only line that enters or leaves a block,
and it does exactly one of the two: where it closes a recipe or a body outline it is
looked at once more, and the two transitions together cross the boundary of a block
once. So the number of delimiters tells whether a line stands inside a block.
-/

namespace DesignRecipe.Outline

namespace State

/-! ### Runs of the machine -/

/-- **The state after lines.** -/
def after (lines : List Text) : State := lines.foldl next initial

@[simp] theorem after_nil : after [] = initial := rfl

@[simp] theorem after_concat (lines : List Text) (line : Text) :
    after (lines ++ [line]) = (after lines).next line := by
  simp [after]

/-- The state looks at the trimmed line alone. -/
theorem next_congr {line line' : Text} (h : Text.trim line = Text.trim line') (s : State) :
    s.next line = s.next line' := by
  rw [next, next, h]

@[simp] theorem next_dropLineEnd (s : State) (line : Text) :
    s.next (Text.dropLineEnd line) = s.next line :=
  next_congr (Text.trim_dropLineEnd line) s

@[simp] theorem next_trim (s : State) (line : Text) : s.next (Text.trim line) = s.next line :=
  next_congr (Text.trim_trim line) s

/-- So do runs. -/
theorem after_map_trim (lines : List Text) : after (lines.map Text.trim) = after lines := by
  simp only [after, List.foldl_map, next_trim]

/-- A contract line stands in a recipe. -/
theorem ne_contract_of_region {s : State} (h : s.region ≠ .recipe) : s ≠ ⟨.recipe, .contract⟩ := by
  rintro rfl
  exact h rfl

/-! ### Delimiters -/

/-- Whether a line, once trimmed, starts with the delimiter of blocks. -/
def delimits (line : Text) : Bool := isDelimiter (Text.trim line)

/-- Whether a line in this state stands in a block, or in a recipe, which is a block with
a section header. -/
def inBlock (s : State) : Bool := s.region = .block ∨ s.region = .recipe

/-- **How a line moves the state**, each case with what the line has to be for it. -/
inductive Move (s : State) (line : Text) : State → Prop
  /-- A delimiter crosses the boundary of a block, and no section is left after it. -/
  | cross : delimits line = true →
      Move s line (if s.inBlock then ⟨.outside, .none⟩ else ⟨.block, .none⟩)
  /-- A line without a meaning of its own leaves the state alone. -/
  | stay : delimits line = false → s.region ≠ .recipe →
      (s.region = .outside → (Text.trim line).head? ≠ some '#') →
      (s.region = .block → s.detect? (Text.trim line) = none) → Move s line s
  /-- A comment starts a body outline. -/
  | comment : delimits line = false → s.region = .outside → (Text.trim line).head? = some '#' →
      Move s line ⟨.body, .none⟩
  /-- A section header makes a block a recipe. -/
  | enter {h : Heading} : delimits line = false → s.region = .block →
      s.detect? (Text.trim line) = some h → Move s line ⟨.recipe, h⟩
  /-- A line of a recipe starts a section or continues one. -/
  | go : delimits line = false → s.region = .recipe →
      Move s line ⟨.recipe, (s.detect? (Text.trim line)).getD .none⟩

/-- **Every line makes one of these moves.** -/
theorem move_next (s : State) (line : Text) : Move s line (s.next line) := by
  -- A delimiter may go through the machine twice, any other line goes through it once.
  by_cases h : delimits line = true
  · have hcross := Move.cross (s := s) h
    rw [delimits] at h
    obtain ⟨region, heading⟩ := s
    cases region <;> simpa [next, step, h, inBlock] using hcross
  · rw [Bool.not_eq_true] at h
    have hdelim : isDelimiter (Text.trim line) = false := h
    obtain ⟨region, heading⟩ := s
    cases region with
    | outside =>
      by_cases hhash : (Text.trim line).head? = some '#'
      · simpa [next, step, hdelim, hhash] using
          Move.comment (s := ⟨.outside, heading⟩) h rfl hhash
      · simpa [next, step, hdelim, hhash] using
          Move.stay (s := ⟨.outside, heading⟩) h (by simp) (fun _ => hhash) (by simp)
    | block =>
      cases hd : detect? ⟨.block, heading⟩ (Text.trim line) with
      | none =>
        simpa [next, step, hdelim, hd] using
          Move.stay (s := ⟨.block, heading⟩) h (by simp) (by simp) (fun _ => hd)
      | some found =>
        simpa [next, step, hdelim, hd] using Move.enter (s := ⟨.block, heading⟩) h rfl hd
    | recipe => simpa [next, step, hdelim] using Move.go (s := ⟨.recipe, heading⟩) h rfl
    | body =>
      simpa [next, step, hdelim] using
        Move.stay (s := ⟨.body, heading⟩) h (by simp) (by simp) (by simp)

theorem move_of_next {s t : State} {line : Text} (h : s.next line = t) : Move s line t :=
  h ▸ move_next s line

/-- A delimiter crosses the boundary of a block. -/
theorem next_of_delimits {line : Text} (h : delimits line = true) (s : State) :
    s.next line = if s.inBlock then ⟨.outside, .none⟩ else ⟨.block, .none⟩ := by
  generalize ht : s.next line = t
  cases move_of_next ht with
  | cross => rfl
  | stay hd => rw [hd] at h; exact absurd h (by decide)
  | comment hd => rw [hd] at h; exact absurd h (by decide)
  | enter hd => rw [hd] at h; exact absurd h (by decide)
  | go hd => rw [hd] at h; exact absurd h (by decide)

/-- **No other line crosses the boundary of a block.** -/
theorem inBlock_next {line : Text} (h : delimits line = false) (s : State) :
    (s.next line).inBlock = s.inBlock := by
  generalize ht : s.next line = t
  cases move_of_next ht with
  | cross hd => rw [hd] at h; exact absurd h (by decide)
  | stay => rfl
  | comment _ hregion => simp [inBlock, hregion]
  | enter _ hregion => simp [inBlock, hregion]
  | go _ hregion => simp [inBlock, hregion]

/-- **The parity of the delimiters** tells whether a line stands in a block. -/
theorem inBlock_after (lines : List Text) :
    (after lines).inBlock = true ↔ Odd (lines.countP delimits) := by
  induction lines using List.reverseRecOn with
  | nil => simp [inBlock, initial]
  | append_singleton lines line ih =>
    rw [after_concat, List.countP_append, List.countP_singleton]
    by_cases h : delimits line = true
    · -- One delimiter more, and the line is on the other side of the boundary.
      rw [next_of_delimits h, if_pos h, Nat.odd_add_one, ← ih]
      cases (after lines).inBlock <;> decide
    · rw [Bool.not_eq_true] at h
      rw [inBlock_next h, ih, h]
      simp

/-! ### Sections -/

/-- **Only a recipe has sections.** -/
def Sectioned (s : State) : Prop := s.heading ≠ .none → s.region = .recipe

theorem Sectioned.next {s : State} (h : s.Sectioned) (line : Text) : (s.next line).Sectioned := by
  generalize ht : s.next line = t
  cases move_of_next ht with
  | cross => split <;> exact fun hne => absurd rfl hne
  | stay => exact h
  | comment => exact fun hne => absurd rfl hne
  | enter => exact fun _ => rfl
  | go => exact fun _ => rfl

theorem sectioned_after (lines : List Text) : (after lines).Sectioned := by
  induction lines using List.reverseRecOn with
  | nil => exact fun h => absurd rfl h
  | append_singleton lines line ih =>
    rw [after_concat]
    exact ih.next line

/-! ### Where a state comes from -/

/-- A section that is detected is one with a header. -/
theorem ne_none_of_detect? {s : State} {line : Text} {h : Heading} (hd : s.detect? line = some h) :
    h ≠ .none := by
  have hmem : h ∈ Heading.labelled := List.mem_of_find?_eq_some hd
  rintro rfl
  exact absurd hmem (by decide)

/-- **A recipe starts with a section header**: a further line of a section comes after a
line of the recipe. -/
theorem region_of_next_continued {s : State} {line : Text} (h : s.next line = ⟨.recipe, .none⟩) :
    s.region = .recipe := by
  generalize ht : s.next line = t at h
  cases move_of_next ht with
  | cross => split at h <;> exact absurd h (by decide)
  | stay _ hregion => exact absurd (congrArg region h) hregion
  | comment => exact absurd h (by decide)
  | enter _ _ hd => exact absurd (congrArg heading h) (ne_none_of_detect? hd)
  | go _ hregion => exact hregion

/-- **A body outline starts with a comment.** -/
theorem region_of_next_body {s : State} {line : Text} (h : (s.next line).region = .body) :
    s.region = .body ∨ (Text.trim line).head? = some '#' := by
  generalize ht : s.next line = t at h
  cases move_of_next ht with
  | cross => split at h <;> exact absurd h (by decide)
  | stay => exact Or.inl h
  | comment _ _ hhash => exact Or.inr hhash
  | enter => exact absurd h (by simp)
  | go => exact absurd h (by simp)

end State

end DesignRecipe.Outline

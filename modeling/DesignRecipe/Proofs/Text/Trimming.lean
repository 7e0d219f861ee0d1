import DesignRecipe.Proofs.Text.Blank
import Mathlib.Data.List.Basic
import Mathlib.Data.List.Induction

/-!
# Trimming

Blanks at the two ends of a text can be dropped in either order, and a line end is made
of blanks. So the trimmed text of a line is the same whether its line end has been
dropped before or not, which is what lets the reading of an outline hand the line on
without its end and the state look at the trimmed line alone.

A text that is written for a line has no blanks at its ends (`Tight`), so that trimming gives
it back out of whatever blanks it is put between.
-/

namespace DesignRecipe.Text

variable {p q : Char → Bool}

/-! ### Dropping at the end -/

/-- The last character decides whether anything is dropped. -/
theorem dropEndWhile_concat (p : Char → Bool) (s : Text) (c : Char) :
    dropEndWhile p (s ++ [c]) = if p c then dropEndWhile p s else s ++ [c] := by
  induction s with
  | nil => rfl
  | cons d s ih =>
    rw [List.cons_append, dropEndWhile, ih]
    by_cases hc : p c
    · simp [hc, dropEndWhile]
    · -- The text behind `d` is not empty, so `d` stays.
      rw [if_neg hc, if_neg hc]
      cases hs : s ++ [c] with
      | nil => simp at hs
      | cons a l => rfl

/-- Dropping more at the end makes up for what was dropped before. -/
theorem dropEndWhile_dropEndWhile (h : ∀ c, q c = true → p c = true) (s : Text) :
    dropEndWhile p (dropEndWhile q s) = dropEndWhile p s := by
  induction s using List.reverseRecOn with
  | nil => rfl
  | append_singleton s c ih =>
    rw [dropEndWhile_concat q]
    by_cases hc : q c
    · rw [if_pos hc, ih, dropEndWhile_concat, if_pos (h c hc)]
    · rw [if_neg hc]

/-- **The two ends of a text do not meet**: it does not matter which one is dropped
first. -/
theorem dropEndWhile_dropWhile (p : Char → Bool) (s : Text) :
    dropEndWhile p (s.dropWhile p) = (dropEndWhile p s).dropWhile p := by
  induction s with
  | nil => rfl
  | cons c s ih =>
    by_cases hc : p c
    · rw [List.dropWhile_cons_of_pos hc, ih, dropEndWhile]
      split
      · next h => simp [h, hc]
      · rw [List.dropWhile_cons_of_pos hc]
    · rw [List.dropWhile_cons_of_neg hc, dropEndWhile]
      split
      · simp [hc]
      · rw [List.dropWhile_cons_of_neg hc]

/-- The blanks at the end may be dropped first. -/
theorem trim_eq (s : Text) : trim s = trimLeft (trimRight s) := dropEndWhile_dropWhile isBlank s

/-- **What is dropped behind a character that stays** does not depend on what stands before it. -/
theorem dropEndWhile_append {s : Text} (hs : s ≠ []) (h : ∀ c ∈ s.getLast?, p c = false)
    (t : Text) : dropEndWhile p (s ++ t) = s ++ dropEndWhile p t := by
  induction t using List.reverseRecOn with
  | nil =>
    obtain ⟨init, c, rfl⟩ := (List.eq_nil_or_concat' s).resolve_left hs
    have hc : p c = false := h c (by simp)
    rw [List.append_nil, dropEndWhile_concat, hc]
    exact (List.append_nil _).symm
  | append_singleton t d ih =>
    rw [← List.append_assoc, dropEndWhile_concat, dropEndWhile_concat, ih]
    split
    · rfl
    · exact List.append_assoc _ _ _

/-- **What is dropped at the end** is made of the characters to drop. -/
theorem exists_dropEndWhile_append (p : Char → Bool) (s : Text) :
    ∃ dropped, (∀ c ∈ dropped, p c = true) ∧ s = dropEndWhile p s ++ dropped := by
  induction s using List.reverseRecOn with
  | nil => exact ⟨[], List.forall_mem_nil _, rfl⟩
  | append_singleton s c ih =>
    rw [dropEndWhile_concat]
    split
    · next hc =>
      obtain ⟨dropped, hdropped, hs⟩ := ih
      refine ⟨dropped ++ [c], List.forall_mem_append.mpr ⟨hdropped, by simpa using hc⟩, ?_⟩
      rw [← List.append_assoc, ← hs]
    · exact ⟨[], List.forall_mem_nil _, (List.append_nil _).symm⟩

/-! ### Line ends -/

/-- A character that is no line end is not taken off with one. -/
theorem mem_dropLineEnd {c : Char} (h : (c == '\r' || c == '\n') = false) (s : Text) :
    c ∈ dropLineEnd s ↔ c ∈ s := by
  obtain ⟨dropped, hdropped, hs⟩ := exists_dropEndWhile_append (fun c => c == '\r' || c == '\n') s
  have hnotMem : c ∉ dropped := fun hc => by simp [hdropped c hc] at h
  conv_rhs => rw [hs, List.mem_append]
  simp [dropLineEnd, hnotMem]

/-- A line end is made of blanks. -/
theorem isBlank_of_lineEnd {c : Char} (h : (c == '\r' || c == '\n') = true) :
    isBlank c = true := by
  rcases Bool.or_eq_true_iff.mp h with h | h <;> rw [eq_of_beq h] <;> decide

/-- **A line and the line without its end are the same once trimmed.** -/
@[simp] theorem trim_dropLineEnd (s : Text) : trim (dropLineEnd s) = trim s := by
  rw [trim, trim, trimRight, trimRight, trimLeft, trimLeft, dropEndWhile_dropWhile,
    dropEndWhile_dropWhile, dropLineEnd, dropEndWhile_dropEndWhile fun _ => isBlank_of_lineEnd]

/-- Dropping the line end twice is dropping it once. -/
@[simp] theorem dropLineEnd_dropLineEnd (s : Text) :
    dropLineEnd (dropLineEnd s) = dropLineEnd s :=
  dropEndWhile_dropEndWhile (fun _ h => h) s

/-! ### Texts without blanks at their ends -/

/-- **A text that trimming leaves alone**: neither of its ends is a blank. -/
structure Tight (t : Text) : Prop where
  head : ∀ c ∈ t.head?, isBlank c = false
  last : ∀ c ∈ t.getLast?, isBlank c = false

variable {s t before after : Text}

theorem Tight.of_forall (h : ∀ c ∈ t, isBlank c = false) : Tight t :=
  ⟨fun _ hc => h _ (List.mem_of_head? hc), fun _ hc => h _ (List.mem_of_getLast? hc)⟩

/-- Only the two ends count. -/
theorem Tight.ends {c d : Char} (hc : isBlank c = false) (hd : isBlank d = false) (t : Text) :
    Tight (c :: t ++ [d]) := by
  refine ⟨?_, ?_⟩
  · simpa using hc
  · rw [List.getLast?_concat]
    simpa using hd

theorem Tight.append (hs : Tight s) (hs' : s ≠ []) (ht : Tight t) (ht' : t ≠ []) (middle : Text) :
    Tight (s ++ middle ++ t) := by
  refine ⟨?_, ?_⟩
  · rw [List.append_assoc, List.head?_append_of_ne_nil _ hs']
    exact hs.head
  · rw [List.getLast?_append_of_ne_nil _ ht']
    exact ht.last

/-- Blanks at the end are passed over. -/
theorem trimRight_append (t : Text) (h : Blank after) : trimRight (t ++ after) = trimRight t := by
  induction after using List.reverseRecOn with
  | nil => rw [List.append_nil]
  | append_singleton after c ih =>
    rw [← List.append_assoc, trimRight, dropEndWhile_concat,
      if_pos (h c (List.mem_append_right _ (List.mem_singleton_self c)))]
    exact ih fun d hd => h d (List.mem_append_left _ hd)

/-- Blanks at the end do not matter for the trimmed text. -/
theorem trim_append (t : Text) (h : Blank after) : trim (t ++ after) = trim t := by
  rw [trim_eq, trim_eq, trimRight_append t h]

/-- Neither do blanks in front. -/
theorem trim_blank_append (h : Blank before) (t : Text) : trim (before ++ t) = trim t := by
  rw [trim, trim, trimLeft_append h]

/-- Nor does it matter whether the end has been trimmed before. -/
theorem trim_trimRight (t : Text) : trim (trimRight t) = trim t := by
  rw [trim_eq, trim_eq, trimRight, trimRight, dropEndWhile_dropEndWhile fun _ h => h]

theorem Tight.trimRight (h : Tight t) : trimRight t = t := by
  induction t using List.reverseRecOn with
  | nil => rfl
  | append_singleton t c _ =>
    have hc : isBlank c = false := h.last c (by simp)
    rw [Text.trimRight, dropEndWhile_concat, if_neg (by simp [hc])]

/-- **Trimming takes off the blanks around a text** and nothing of the text. -/
theorem Tight.trim_append (h : Tight t) (hbefore : Blank before) (hafter : Blank after) :
    trim (before ++ t ++ after) = t := by
  rw [trim, List.append_assoc, trimLeft_append hbefore]
  cases t with
  | nil =>
    rw [List.nil_append, trimLeft_eq_nil hafter]
    rfl
  | cons c t =>
    rw [List.cons_append, trimLeft_cons (h.head c rfl), ← List.cons_append,
      trimRight_append _ hafter, h.trimRight]

theorem Tight.trim (h : Tight t) : trim t = t := by
  simpa using h.trim_append Blank.nil Blank.nil

/-- A line end is taken off only where there is one. -/
theorem Tight.dropLineEnd (h : Tight t) : dropLineEnd t = t := by
  induction t using List.reverseRecOn with
  | nil => rfl
  | append_singleton t c _ =>
    have hc : ¬(c == '\r' || c == '\n') = true := fun hend =>
      absurd (isBlank_of_lineEnd hend) (by simp [h.last c (by simp)])
    rw [Text.dropLineEnd, dropEndWhile_concat, if_neg hc]

/-- The last character that is left is no blank. -/
theorem isBlank_getLast?_trimRight (s : Text) :
    ∀ c ∈ (trimRight s).getLast?, isBlank c = false := by
  induction s using List.reverseRecOn with
  | nil => exact fun c hc => absurd hc (by simp [Text.trimRight, dropEndWhile])
  | append_singleton s d ih =>
    rw [Text.trimRight, dropEndWhile_concat]
    by_cases hd : isBlank d = true
    · rw [if_pos hd]
      exact ih
    · rw [if_neg hd, List.getLast?_concat]
      rintro c ⟨⟩
      simpa using hd

/-- **Trimming leaves no blank at either end.** -/
theorem tight_trim (s : Text) : Tight (Text.trim s) where
  head := by
    intro c hc
    have hhead := List.head?_dropWhile_not isBlank (Text.trimRight s)
    rw [trim_eq, trimLeft, Option.mem_def] at hc
    rw [hc] at hhead
    exact hhead
  last := isBlank_getLast?_trimRight _

/-- A first character that is no blank stays where it is. -/
theorem head?_trimRight_cons {c : Char} (hc : isBlank c = false) (s : Text) :
    (Text.trimRight (c :: s)).head? = some c := by
  rw [Text.trimRight, dropEndWhile]
  split
  · simp [hc]
  · rfl

/-- **Texts that trimming leaves alone**, with a separator between neighbours, are one again. -/
theorem Tight.join (separator : Text) {ts : List Text} (h : ∀ t ∈ ts, Tight t ∧ t ≠ []) :
    Tight (join separator ts) ∧ (ts ≠ [] → join separator ts ≠ []) := by
  induction ts with
  | nil => exact ⟨.of_forall (List.forall_mem_nil _), fun h => absurd rfl h⟩
  | cons t ts ih =>
    obtain ⟨ht, hts⟩ := List.forall_mem_cons.mp h
    cases ts with
    | nil => exact ⟨ht.1, fun _ => ht.2⟩
    | cons t' ts =>
      obtain ⟨htight, hne⟩ := ih hts
      refine ⟨ht.1.append ht.2 htight (hne (List.cons_ne_nil _ _)) separator, fun _ => ?_⟩
      rw [Text.join]
      · simp [ht.2]
      · exact List.cons_ne_nil _ _

/-! ### Blanks around a text -/

/-- **A text is its trimmed text between blanks.** -/
theorem exists_trim (s : Text) :
    ∃ before after, Blank before ∧ Blank after ∧ s = before ++ Text.trim s ++ after := by
  obtain ⟨dropped, hdropped, htrim⟩ := exists_dropEndWhile_append isBlank (trimLeft s)
  refine ⟨s.takeWhile isBlank, dropped, fun c hc => List.mem_takeWhile_imp hc, hdropped, ?_⟩
  calc s = s.takeWhile isBlank ++ trimLeft s := List.takeWhile_append_dropWhile.symm
    _ = s.takeWhile isBlank ++ (Text.trim s ++ dropped) := congrArg _ htrim
    _ = s.takeWhile isBlank ++ Text.trim s ++ dropped := (List.append_assoc _ _ _).symm

/-- **Blanks that are put around a text** are trimmed away. -/
theorem trim_pad (hbefore : Blank before) (hafter : Blank after) (s : Text) :
    Text.trim (before ++ s ++ after) = Text.trim s := by
  rw [List.append_assoc, trim_blank_append hbefore, trim_append _ hafter]

@[simp] theorem trim_trim (s : Text) : Text.trim (Text.trim s) = Text.trim s := (tight_trim s).trim

@[simp] theorem dropLineEnd_trim (s : Text) : Text.dropLineEnd (Text.trim s) = Text.trim s :=
  (tight_trim s).dropLineEnd

/-- A character that is no blank is in a text if it is in the trimmed text. -/
theorem mem_trim {c : Char} (hc : isBlank c = false) (s : Text) : c ∈ Text.trim s ↔ c ∈ s := by
  obtain ⟨before, after, hbefore, hafter, hs⟩ := exists_trim s
  have hblank {t : Text} (h : Blank t) : c ∉ t := fun hmem => by simp [h c hmem] at hc
  conv_rhs => rw [hs]
  simp [hblank hbefore, hblank hafter]

/-- What is left of the blanks around a text is trimmed away with what is left of the text. -/
theorem trim_filter_trim (p : Char → Bool) (s : Text) :
    Text.trim ((Text.trim s).filter p) = Text.trim (s.filter p) := by
  obtain ⟨before, after, hbefore, hafter, hs⟩ := exists_trim s
  conv_rhs => rw [hs, List.filter_append, List.filter_append]
  exact (trim_pad (fun c hc => hbefore c (List.mem_of_mem_filter hc))
    (fun c hc => hafter c (List.mem_of_mem_filter hc)) _).symm

end DesignRecipe.Text

import DesignRecipe.Proofs.Text.Trimming

/-!
# Lines and words

A line has no line feed in it and a word no blank. So a text that is put together line by line
has the lines that it was put together from (`Lined`), whatever comes after it: a law about the
lines of a file that is written piece by piece is a law about each piece.

What is cut out of a text stands at a column of it (`StandsAt`), and so does what is cut out of
that.
-/

namespace DesignRecipe.Text

/-! ### Lines -/

/-- A line feed ends the line. -/
theorem lines_append_lineFeed {line : Text} (h : '\n' ∉ line) (rest : Text) :
    lines (line ++ '\n' :: rest) = line :: lines rest := by
  induction line with
  | nil => rfl
  | cons c line ih =>
    obtain ⟨hc, hline⟩ := not_or.mp (mt List.mem_cons.mpr h)
    rw [List.cons_append, lines, if_neg (Ne.symm hc), ih hline]

/-- **There is no line feed in a line.** -/
theorem lineFeed_notMem_of_mem_lines {s line : Text} (h : line ∈ lines s) : '\n' ∉ line := by
  induction s generalizing line with
  | nil => exact absurd h List.not_mem_nil
  | cons c rest ih =>
    rw [lines] at h
    split at h
    · rcases List.mem_cons.mp h with rfl | h
      · exact List.not_mem_nil
      · exact ih h
    · next hc =>
      split at h
      · rw [List.mem_singleton.mp h, List.mem_singleton]
        exact Ne.symm hc
      · next first more heq =>
        rw [heq] at ih
        rcases List.mem_cons.mp h with rfl | h
        · exact fun hmem => (List.mem_cons.mp hmem).elim (Ne.symm hc) (ih List.mem_cons_self)
        · exact ih (List.mem_cons_of_mem _ h)

/-- **A text that is made of whole lines.** -/
def Lined (ls : List Text) (t : Text) : Prop := ∀ rest, lines (t ++ rest) = ls ++ lines rest

namespace Lined

variable {ls ls' : List Text} {t t' : Text}

theorem nil : Lined [] [] := fun _ => rfl

theorem line (h : '\n' ∉ t) : Lined [t] (t ++ ['\n']) := fun rest => by
  rw [List.append_assoc, List.singleton_append, lines_append_lineFeed h]
  rfl

/-- Whatever ends with a line feed is made of whole lines. -/
theorem exists_lined (s : Text) : ∃ line more, Lined (line :: more) (s ++ ['\n']) := by
  induction s with
  | nil => exact ⟨[], [], line List.not_mem_nil⟩
  | cons c s ih =>
    obtain ⟨first, more, ih⟩ := ih
    by_cases hc : c = '\n'
    · refine ⟨[], first :: more, fun rest => ?_⟩
      rw [List.cons_append, List.cons_append, lines, if_pos hc, ih]
      rfl
    · refine ⟨c :: first, more, fun rest => ?_⟩
      rw [List.cons_append, List.cons_append, lines, if_neg hc, ih]
      rfl

theorem append (h : Lined ls t) (h' : Lined ls' t') : Lined (ls ++ ls') (t ++ t') := fun rest => by
  rw [List.append_assoc, h, h', List.append_assoc]

theorem flatMap {α : Type} {xs : List α} {f : α → List Text} {g : α → Text}
    (h : ∀ x ∈ xs, Lined (f x) (g x)) : Lined (xs.flatMap f) (xs.flatMap g) := by
  induction xs with
  | nil => exact nil
  | cons x xs ih =>
    obtain ⟨hx, hxs⟩ := List.forall_mem_cons.mp h
    rw [List.flatMap_cons, List.flatMap_cons]
    exact hx.append (ih hxs)

/-- The lines of the text are those that it is made of. -/
theorem lines_eq (h : Lined ls t) : lines t = ls := by
  have hnil := h []
  rwa [List.append_nil, lines, List.append_nil] at hnil

end Lined

/-! ### Words -/

/-- **There is no blank in a word.** -/
theorem isBlank_of_mem_wordsFrom {s : Text} {column : Nat} :
    ∀ w ∈ wordsFrom column s, ∀ c ∈ w.text, isBlank c = false := by
  induction s generalizing column with
  | nil => exact List.forall_mem_nil _
  | cons c rest ih =>
    simp only [wordsFrom]
    split
    · exact ih
    · next hc =>
      rw [Bool.not_eq_true] at hc
      split
      · exact List.forall_mem_cons.mpr ⟨List.forall_mem_singleton.mpr hc, ih⟩
      · split
        · exact List.forall_mem_singleton.mpr (List.forall_mem_singleton.mpr hc)
        · next word others heq =>
          have hwords : ∀ w ∈ wordsFrom (column + 1) rest, ∀ c ∈ w.text, isBlank c = false := ih
          rw [heq, List.forall_mem_cons] at hwords
          exact List.forall_mem_cons.mpr
            ⟨List.forall_mem_cons.mpr ⟨hc, hwords.1⟩, hwords.2⟩

/-! ### What is cut out of a text -/

/-- A text contains the texts that are cut out of it. -/
theorem contains_iff_isInfix {s part : Text} : contains s part = true ↔ part <:+: s := by
  induction s with
  | nil => simp [contains]
  | cons c s ih =>
    rw [contains, Bool.or_eq_true, List.isPrefixOf_iff_prefix, ih, List.infix_cons_iff]

/-- What is left of a text whose end is dropped is its start. -/
theorem isPrefix_dropEndWhile (p : Char → Bool) (s : Text) : dropEndWhile p s <+: s := by
  obtain ⟨dropped, -, hs⟩ := exists_dropEndWhile_append p s
  exact ⟨dropped, hs.symm⟩

section Cuts

-- Raw texts are cut like texts.
variable {α : Type} [BEq α] [LawfulBEq α]

/-- A text is passed over as a whole if the character to stop at is not in it. -/
theorem dropWhile_ne_eq_nil_iff (c : α) (s : List α) : s.dropWhile (· != c) = [] ↔ c ∉ s := by
  simp only [List.dropWhile_eq_nil_iff, bne_iff_ne, ne_eq]
  exact ⟨fun h hmem => h c hmem rfl, fun h d hd heq => h (heq ▸ hd)⟩

/-- Up to a character there is none of it. -/
theorem notMem_takeWhile_ne (c : α) (s : List α) : c ∉ s.takeWhile (· != c) := fun hmem => by
  simpa using List.mem_takeWhile_imp hmem

/-- What is left of a text from a character on starts with it. -/
theorem eq_of_dropWhile_ne {c d : α} {s rest : List α} (h : s.dropWhile (· != c) = d :: rest) :
    d = c := by
  have hhead := List.head?_dropWhile_not (· != c) s
  rw [h] at hhead
  simpa using hhead

/-- **A text is parted at a character** that is not in what stands before it. -/
theorem takeWhile_ne_append {c : α} {front rest : List α} (hfront : c ∉ front)
    (hrest : ∀ d ∈ rest.head?, d = c) :
    (front ++ rest).takeWhile (· != c) = front ∧ (front ++ rest).dropWhile (· != c) = rest := by
  have hne : ∀ d ∈ front, (d != c) = true := by
    intro d hd
    rw [bne_iff_ne]
    rintro rfl
    exact hfront hd
  rw [List.takeWhile_append_of_pos hne, List.dropWhile_append_of_pos hne]
  cases rest with
  | nil => simp
  | cons d rest =>
    obtain rfl : d = c := hrest d rfl
    simp

end Cuts

/-- **A text is parted at the last of its separators** in one way only. -/
theorem append_cons_inj_last {c : Char} {s s' t t' : Text} (ht : c ∉ t) (ht' : c ∉ t') :
    s ++ c :: t = s' ++ c :: t' ↔ s = s' ∧ t = t' := by
  constructor
  · intro h
    have hreverse : t.reverse ++ c :: s.reverse = t'.reverse ++ c :: s'.reverse := by
      simpa using congrArg List.reverse h
    have hparted (s : Text) {t : Text} (ht : c ∉ t) :
        (t.reverse ++ c :: s.reverse).takeWhile (· != c) = t.reverse ∧
          (t.reverse ++ c :: s.reverse).dropWhile (· != c) = c :: s.reverse :=
      takeWhile_ne_append (fun hmem => ht (List.mem_reverse.mp hmem)) (by simp)
    obtain ⟨hfront, hrest⟩ := hparted s ht
    obtain ⟨hfront', hrest'⟩ := hparted s' ht'
    rw [hreverse] at hfront hrest
    exact ⟨List.reverse_inj.mp (List.cons_eq_cons.mp (hrest.symm.trans hrest')).2,
      List.reverse_inj.mp (hfront.symm.trans hfront')⟩
  · rintro ⟨rfl, rfl⟩
    rfl

/-- **A part of a text** that starts at a column of it. -/
def StandsAt (s : Text) (column : Nat) (part : Text) : Prop :=
  ∃ before after, s = before ++ part ++ after ∧ before.length = column

variable {s part part' : Text} {column column' : Nat}

/-- **Columns add up**: a part of a part is a part of the text. -/
theorem StandsAt.trans (h : StandsAt s column part) (h' : StandsAt part column' part') :
    StandsAt s (column + column') part' := by
  obtain ⟨before, after, rfl, rfl⟩ := h
  obtain ⟨before', after', rfl, rfl⟩ := h'
  exact ⟨before ++ before', after' ++ after, by simp, List.length_append⟩

theorem StandsAt.of_isPrefix (h : part <+: s) : StandsAt s 0 part := by
  obtain ⟨after, rfl⟩ := h
  exact ⟨[], after, rfl, rfl⟩

/-- What is left of a text that starts with something stands behind it. -/
theorem StandsAt.of_append {before : Text} (h : before ++ part = s) :
    StandsAt s before.length part :=
  ⟨before, [], by rw [List.append_nil, h], rfl⟩

theorem standsAt_drop (h : column ≤ s.length) : StandsAt s column (s.drop column) :=
  ⟨s.take column, [], by simp, List.length_take_of_le h⟩

theorem StandsAt.sublist (h : StandsAt s column part) : part.Sublist s := by
  obtain ⟨before, after, rfl, -⟩ := h
  exact (List.sublist_append_right _ _).trans (List.sublist_append_left _ _)

theorem StandsAt.add_length_le (h : StandsAt s column part) : column + part.length ≤ s.length := by
  obtain ⟨before, after, rfl, rfl⟩ := h
  simp only [List.length_append]
  omega

/-- **Trimming leaves a part** behind the blanks that the text starts with. -/
theorem standsAt_trim (s : Text) : StandsAt s (leadingBlanks s) (trim s) := by
  have hblanks : StandsAt s (leadingBlanks s) (trimLeft s) :=
    .of_append List.takeWhile_append_dropWhile
  exact hblanks.trans (.of_isPrefix (isPrefix_dropEndWhile _ _))

/-- A part that is trimmed is a part behind its blanks. -/
theorem StandsAt.trim (h : StandsAt s column part) :
    StandsAt s (column + leadingBlanks part) (Text.trim part) :=
  h.trans (standsAt_trim part)

end DesignRecipe.Text

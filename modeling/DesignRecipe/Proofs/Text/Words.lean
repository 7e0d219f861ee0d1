import DesignRecipe.Proofs.Text.Trimming

/-!
# Words laid out in a text

A text is made of words and of gaps between them. Which characters stand in gaps is a choice. Once
it is made, every text has words laid out in it (`exists_worded`), and where the gaps are blanks
these are the words that the reader finds (`map_text_words_eq_iff`), so that a text has its words
in one way only.

All that is said about the reader comes from one equation: the words of a text are those before a
blank and those behind it (`wordsFrom_append_cons`). So it does not matter how wide a gap is
(`map_text_words_exchange`).
-/

namespace DesignRecipe.Text

variable {gap gap' : Char → Bool} {s front back before between between' word : Text}
  {ws : List Text}

/-! ### Words and gaps -/

/-- **Words laid out in a text**, in order. Each has a character and no gap in it, neighbours have
a gap between them, and there may be gaps at both ends. -/
inductive Worded (gap : Char → Bool) : List Text → Text → Prop
  | nil {s : Text} : (∀ c ∈ s, gap c = true) → Worded gap [] s
  /-- A first word, and behind it either nothing or a gap. -/
  | cons {before word rest : Text} {ws : List Text} : (∀ c ∈ before, gap c = true) → word ≠ [] →
      (∀ c ∈ word, gap c = false) → (∀ c ∈ rest.head?, gap c = true) → Worded gap ws rest →
      Worded gap (word :: ws) (before ++ word ++ rest)

namespace Worded

/-- More of a gap may stand in front of the first word. -/
theorem gap_append (h : Worded gap ws s) (hbefore : ∀ c ∈ before, gap c = true) :
    Worded gap ws (before ++ s) := by
  cases h with
  | nil hs => exact .nil (List.forall_mem_append.mpr ⟨hbefore, hs⟩)
  | cons hfront hne hword hrest h =>
    rw [← List.append_assoc, ← List.append_assoc]
    exact .cons (List.forall_mem_append.mpr ⟨hbefore, hfront⟩) hne hword hrest h

/-- The first word may stand at the start. -/
theorem word_append {rest : Text} (hne : word ≠ []) (hword : ∀ c ∈ word, gap c = false)
    (hrest : ∀ c ∈ rest.head?, gap c = true) (h : Worded gap ws rest) :
    Worded gap (word :: ws) (word ++ rest) := by
  have hcons : Worded gap (word :: ws) ([] ++ word ++ rest) :=
    .cons (List.forall_mem_nil _) hne hword hrest h
  rwa [List.nil_append] at hcons

/-- A text that starts with no gap starts with its first word, which may go on in front. -/
theorem exists_cons {c d : Char} (hc : gap c = false) (hd : gap d = false)
    (h : Worded gap ws (d :: s)) : ∃ ws', Worded gap ws' (c :: d :: s) := by
  generalize htext : d :: s = t at h
  cases h with
  | nil hall =>
    subst htext
    have hgap : gap d = true := hall d List.mem_cons_self
    rw [hgap] at hd
    cases hd
  | @cons before word rest ws hbefore hne hword hrest h =>
    cases before with
    | nil =>
      have hlonger : ∀ a ∈ c :: word, gap a = false := List.forall_mem_cons.mpr ⟨hc, hword⟩
      exact ⟨_, word_append (List.cons_ne_nil c word) hlonger hrest h⟩
    | cons a before =>
      obtain ⟨rfl, -⟩ := List.cons_eq_cons.mp htext
      have hgap : gap d = true := hbefore d List.mem_cons_self
      rw [hgap] at hd
      cases hd

/-- The characters in words may stay as they are while those in gaps become others. -/
theorem map {f : Char → Char} (hgap : ∀ c, gap' (f c) = gap c)
    (hfix : ∀ c, gap c = false → f c = c) (h : Worded gap ws s) : Worded gap' ws (s.map f) := by
  induction h with
  | nil hs =>
    refine .nil fun c hc => ?_
    obtain ⟨d, hd, rfl⟩ := List.mem_map.mp hc
    rw [hgap, hs d hd]
  | @cons before word rest ws hbefore hne hword hrest _ ih =>
    have hsame : word.map f = word := by
      conv_rhs => rw [← List.map_id word]
      exact List.map_congr_left fun c hc => hfix c (hword c hc)
    rw [List.map_append, List.map_append, hsame]
    refine .cons ?_ hne ?_ ?_ ih
    · intro c hc
      obtain ⟨d, hd, rfl⟩ := List.mem_map.mp hc
      rw [hgap, hbefore d hd]
    · intro c hc
      rw [← hfix c (hword c hc), hgap, hword c hc]
    · rintro c hc
      rw [List.head?_map] at hc
      obtain ⟨d, hd, rfl⟩ := Option.map_eq_some_iff.mp hc
      rw [hgap, hrest d hd]

end Worded

/-- **Every text has words laid out in it.** -/
theorem exists_worded (gap : Char → Bool) (s : Text) : ∃ ws, Worded gap ws s := by
  induction s with
  | nil => exact ⟨[], .nil (List.forall_mem_nil _)⟩
  | cons c s ih =>
    obtain ⟨ws, hws⟩ := ih
    by_cases hc : gap c = true
    · have hfront : ∀ d ∈ [c], gap d = true := List.forall_mem_singleton.mpr hc
      exact ⟨ws, hws.gap_append hfront⟩
    rw [Bool.not_eq_true] at hc
    have hword : ∀ d ∈ [c], gap d = false := List.forall_mem_singleton.mpr hc
    have hnew (hs : ∀ d ∈ s.head?, gap d = true) : Worded gap ([c] :: ws) ([c] ++ s) :=
      .word_append (List.cons_ne_nil c []) hword hs hws
    cases s with
    | nil => exact ⟨_, hnew (by simp)⟩
    | cons d s =>
      by_cases hd : gap d = true
      · exact ⟨_, hnew (by simpa using hd)⟩
      · -- The word that comes first in the rest is the end of a word here.
        rw [Bool.not_eq_true] at hd
        exact hws.exists_cons hc hd

/-! ### The words that the reader finds -/

/-- **The words of a text are those before a blank and those behind it.** -/
theorem wordsFrom_append_cons {c : Char} (hc : isBlank c = true) (column : Nat) (s t : Text) :
    wordsFrom column (s ++ c :: t) =
      wordsFrom column s ++ wordsFrom (column + s.length + 1) t := by
  induction s generalizing column with
  | nil => simp [wordsFrom, hc]
  | cons d s ih =>
    have hcolumn : column + 1 + s.length + 1 = column + (d :: s).length + 1 := by
      rw [List.length_cons]
      omega
    have hmore := ih (column + 1)
    rw [hcolumn] at hmore
    rw [List.cons_append, wordsFrom, wordsFrom, hmore]
    by_cases hd : isBlank d = true
    · rw [if_pos hd, if_pos hd]
    rw [if_neg hd, if_neg hd]
    cases s with
    | nil => simp [hc]
    | cons e s =>
      by_cases he : isBlank e = true
      · simp [he]
      · -- The word that `e` belongs to is found, and `d` goes in front of it.
        have hne : wordsFrom (column + 1) (e :: s) ≠ [] := by
          rw [wordsFrom, if_neg he]
          split
          · exact List.cons_ne_nil _ _
          · split <;> exact List.cons_ne_nil _ _
        obtain ⟨w, others, hw⟩ := List.exists_cons_of_ne_nil hne
        simp [he, hw]

/-- A text without a blank is a word. -/
theorem wordsFrom_word (column : Nat) (hne : word ≠ []) (hword : ∀ c ∈ word, isBlank c = false) :
    wordsFrom column word = [⟨column, word⟩] := by
  induction word generalizing column with
  | nil => exact absurd rfl hne
  | cons c word ih =>
    obtain ⟨hc, hrest⟩ := List.forall_mem_cons.mp hword
    rw [wordsFrom]
    cases word with
    | nil => simp [hc, wordsFrom]
    | cons d word =>
      have hd : isBlank d = false := hrest d List.mem_cons_self
      rw [ih (column + 1) (List.cons_ne_nil d word) hrest]
      simp [hc, hd]

/-- The words themselves do not depend on the column where the text starts. -/
theorem map_text_wordsFrom (column column' : Nat) (s : Text) :
    (wordsFrom column s).map Piece.text = (wordsFrom column' s).map Piece.text := by
  induction s generalizing column column' with
  | nil => rfl
  | cons c s ih =>
    have hmore := ih (column + 1) (column' + 1)
    rw [wordsFrom, wordsFrom]
    split
    · exact hmore
    · split
      · exact congrArg ([c] :: ·) hmore
      · generalize wordsFrom (column + 1) s = more at hmore
        generalize wordsFrom (column' + 1) s = more' at hmore
        cases more with
        | nil =>
          obtain rfl := List.map_eq_nil_iff.mp hmore.symm
          rfl
        | cons w more =>
          cases more' with
          | nil => cases hmore
          | cons w' more' =>
            obtain ⟨hw, hothers⟩ := List.cons_eq_cons.mp hmore
            simp only [List.map_cons, hw, hothers]

theorem map_text_words_append_cons {c : Char} (hc : isBlank c = true) (s t : Text) :
    (words (s ++ c :: t)).map Piece.text =
      (words s).map Piece.text ++ (words t).map Piece.text := by
  rw [words, wordsFrom_append_cons hc, List.map_append, map_text_wordsFrom _ 0 t]
  rfl

/-- Blanks in front are no words. -/
theorem map_text_words_blank_append (hbefore : Blank before) (t : Text) :
    (words (before ++ t)).map Piece.text = (words t).map Piece.text := by
  induction before with
  | nil => rfl
  | cons c before ih =>
    obtain ⟨hc, hrest⟩ := List.forall_mem_cons.mp hbefore
    exact (map_text_words_append_cons hc [] (before ++ t)).trans (ih hrest)

/-- **The words of a text are those before a gap and those behind it**, if there is a gap or
nothing on one of its sides. -/
theorem map_text_words_append (hgap : Blank between)
    (h : front = [] ∨ back = [] ∨ between ≠ []) :
    (words (front ++ between ++ back)).map Piece.text =
      (words front).map Piece.text ++ (words back).map Piece.text := by
  cases between with
  | nil =>
    rcases h with rfl | rfl | hne
    · rfl
    · simp [words, wordsFrom]
    · exact absurd rfl hne
  | cons c between =>
    obtain ⟨hc, hrest⟩ := List.forall_mem_cons.mp hgap
    rw [List.append_assoc, List.cons_append, map_text_words_append_cons hc,
      map_text_words_blank_append hrest]

/-- **It does not matter how wide a gap is.** -/
theorem map_text_words_exchange (hgap : Blank between) (hgap' : Blank between')
    (h : front = [] ∨ back = [] ∨ (between ≠ [] ∧ between' ≠ [])) :
    (words (front ++ between' ++ back)).map Piece.text =
      (words (front ++ between ++ back)).map Piece.text := by
  rw [map_text_words_append hgap (h.imp_right (Or.imp_right And.left)),
    map_text_words_append hgap' (h.imp_right (Or.imp_right And.right))]

/-- Blanks around a text are no words. -/
theorem map_text_words_pad {after : Text} (hbefore : Blank before) (hafter : Blank after)
    (s : Text) : (words (before ++ s ++ after)).map Piece.text = (words s).map Piece.text := by
  have hbehind : (words (s ++ after ++ [])).map Piece.text =
      (words s).map Piece.text ++ (words []).map Piece.text :=
    map_text_words_append hafter (Or.inr (Or.inl rfl))
  rw [List.append_nil] at hbehind
  rw [List.append_assoc, map_text_words_blank_append hbefore, hbehind]
  exact List.append_nil _

/-- **The words that are laid out in a text between blanks** are those that the reader finds. -/
theorem Worded.map_text_words (h : Worded isBlank ws s) : (words s).map Piece.text = ws := by
  induction h with
  | nil hs =>
    have hnone := map_text_words_blank_append hs []
    rwa [List.append_nil] at hnone
  | @cons before word rest ws hbefore hne hword hrest _ ih =>
    have hfirst : (words word).map Piece.text = [word] := by
      rw [words, wordsFrom_word 0 hne hword]
      rfl
    rw [List.append_assoc, map_text_words_blank_append hbefore]
    cases rest with
    | nil =>
      rw [← ih, List.append_nil, hfirst]
      rfl
    | cons c rest =>
      have hc : isBlank c = true := hrest c rfl
      have hrest' := map_text_words_append_cons hc [] rest
      rw [map_text_words_append_cons hc, hfirst, ← ih]
      exact congrArg (word :: ·) hrest'.symm

theorem map_text_words_eq_iff : (words s).map Piece.text = ws ↔ Worded isBlank ws s := by
  constructor
  · rintro rfl
    obtain ⟨ws, hws⟩ := exists_worded isBlank s
    rwa [hws.map_text_words]
  · exact Worded.map_text_words

end DesignRecipe.Text

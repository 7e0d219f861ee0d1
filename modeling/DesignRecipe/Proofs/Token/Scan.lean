import DesignRecipe.Token
import DesignRecipe.Proofs.Text.Blank
import Mathlib.Data.List.Chain
import Mathlib.Data.List.Forall2

/-!
# What the scan makes of a text

The scan is a machine on characters. What it does at one character is said by an equation for each
kind of character (`Scan.step_quoted`, `Scan.step_unquoted`, `Scan.step_blank`,
`Scan.step_comment`, `Scan.step_begin`), and no later proof opens the step itself. What it makes of
a text depends on where the text stands. Two places matter, and each has a law of its own that
composes.

* **Inside brackets** a text is copied to the current token, character by character, except
  that blanks are dropped or turned into a comma (`Scan.Copies`). A comma is due where an element
  ends before the blanks and another one begins after them (`Scan.Element`), and nowhere else:
  not at a comma, a colon or a bracket.
* **Between blanks** a text is a token of its own (`Scan.Whole`), if it has no blank at all or
  if its blanks stand inside brackets or a string.

So the tokens of texts with blanks between them are found by one induction, and a bracketed
text is copied if what it has between its brackets is.
-/

namespace DesignRecipe

open Text (Blank isBlank)

/-! ### Characters -/

namespace Scan

/-- A character without a meaning of its own: no blank, no bracket, no quote, and not the
start of a comment. -/
def isPlain (c : Char) : Bool :=
  !isBlank c && c != '#' && c != '"' && c != '\'' && (Bracket.ofOpener? c).isNone &&
    (Bracket.ofCloser? c).isNone

/-- A text of characters without a meaning of their own. -/
structure Plain (t : Text) : Prop where
  nonempty : t ≠ []
  chars : ∀ c ∈ t, isPlain c = true

variable {s u w : Scan} {column : Nat} {c : Char} {b : Bracket}
  {t t' out out' rest blanks before after : Text}

theorem isPlain_iff : isPlain c = true ↔ isBlank c = false ∧ c ≠ '#' ∧ c ≠ '"' ∧ c ≠ '\'' ∧
    Bracket.ofOpener? c = none ∧ Bracket.ofCloser? c = none := by
  simp [isPlain, and_assoc]

theorem opener_facts (b : Bracket) : isBlank b.opener = false ∧ b.opener ≠ '#' ∧
    b.opener ≠ '"' ∧ Bracket.ofOpener? b.opener = some b ∧ opensElement b.opener = true := by
  cases b <;> decide

theorem closer_facts (b : Bracket) : isBlank b.closer = false ∧ b.closer ≠ '#' ∧
    Bracket.ofOpener? b.closer = none ∧ Bracket.ofCloser? b.closer = some b := by
  cases b <;> decide

/-! ### One character -/

/-- A character that ends the string that the scan is in. -/
def Ends (s : Scan) (c : Char) : Prop :=
  (s.quoting = .top ∧ c = '"') ∨ (s.quoting = .nested c ∧ s.previous ≠ some '\\')

/-- The scan before a character that is taken for what it is: the character may start a token. -/
def begin (s : Scan) (column : Nat) (c : Char) : Scan :=
  { s with previous := some c, start := if s.current.isEmpty then column else s.start }

theorem begin_of_nil (hcurrent : s.current = []) (column : Nat) (c : Char) :
    s.begin column c = { s with previous := some c, start := column } := by
  simp [begin, hcurrent]

theorem begin_of_ne_nil (hcurrent : s.current ≠ []) (column : Nat) (c : Char) :
    s.begin column c = { s with previous := some c } := by
  simp [begin, hcurrent]

/-- A character in a string that does not end the string. -/
theorem step_quoted (hquoting : s.quoting ≠ .outside) (h : ¬s.Ends c) (column : Nat) :
    s.step column c = some { s.push c with previous := some c } := by
  rw [step]
  dsimp only
  split
  · next htop => rw [if_neg fun hc => h (.inl ⟨htop, hc⟩)]; rfl
  · next quote hnested =>
    rw [if_neg fun hc => h (.inr ⟨by rw [hc.1]; exact hnested, hc.2⟩)]
    rfl
  · next houtside => exact absurd houtside hquoting

theorem step_unquoted (h : s.Ends c) (column : Nat) :
    s.step column c = some { s.push c with previous := some c, quoting := .outside } := by
  rcases h with ⟨htop, rfl⟩ | ⟨hnested, hprevious⟩
  · simp [step, htop, push]
  · simp [step, hnested, hprevious, push]

/-- A blank outside of strings. -/
theorem step_blank (houtside : s.quoting = .outside) (hblank : isBlank c = true) (column : Nat) :
    s.step column c = some (
      if s.brackets = [] then ({ s with previous := some c } : Scan).endToken
      else { s with previous := some c, gap := true }) := by
  simp [step, houtside, stepOutside, hblank]

theorem step_comment (houtside : s.quoting = .outside) (column : Nat) :
    s.step column '#' = none := by
  have hblank : isBlank '#' = false := by decide
  simp [step, houtside, stepOutside, hblank]

/-- A character outside of strings that is no blank and begins no comment. -/
theorem step_begin (houtside : s.quoting = .outside) (hblank : isBlank c = false)
    (hcomment : c ≠ '#') (column : Nat) : s.step column c = some (
      if s.brackets = [] then
        if c = '"' ∧ s.previous.all isBlank = true then
          { (s.begin column c).push c with quoting := .top }
        else (s.begin column c).mark column c
      else ((s.begin column c).separate c).mark column c) := by
  have hbegin : (if s.current.isEmpty then { s with previous := some c, start := column }
      else { s with previous := some c } : Scan) = s.begin column c := by
    rw [begin]
    split <;> rfl
  have hbrackets : (s.begin column c).brackets = s.brackets := rfl
  rw [step]
  dsimp only
  split
  · next htop => simp [houtside] at htop
  · next hnested => simp [houtside] at hnested
  · rw [stepOutside, if_neg (by simp [hblank]), if_neg hcomment]
    simp only [hbegin, hbrackets]
    simp only [List.isEmpty_iff]
    split
    · split <;> rfl
    · rfl

/-- A character without a meaning of its own is put into the token. -/
theorem mark_of_isPlain (hc : isPlain c = true) (s : Scan) (column : Nat) :
    s.mark column c = s.push c := by
  obtain ⟨-, -, hdouble, hsingle, hopener, hcloser⟩ := isPlain_iff.mp hc
  simp only [mark, hopener, hcloser, hdouble, hsingle, or_self, false_and, if_false]

theorem mark_opener (s : Scan) (column : Nat) (b : Bracket) :
    s.mark column b.opener =
      { s.push b.opener with brackets := (column, b) :: s.brackets } := by
  simp only [mark, (opener_facts b).2.2.2.1]

/-! ### Reading on -/

/-- Reads a text that starts at a column, unless a comment starts in it. -/
def walk (s : Scan) : Nat → Text → Option Scan
  | _, [] => some s
  | column, c :: rest => (s.step column c).bind fun s => s.walk (column + 1) rest

@[simp] theorem walk_nil (s : Scan) (column : Nat) : s.walk column [] = some s := rfl

theorem walk_cons (s : Scan) (column : Nat) (c : Char) (rest : Text) :
    s.walk column (c :: rest) = (s.step column c).bind fun s => s.walk (column + 1) rest := rfl

theorem walk_append (s : Scan) (column : Nat) (t rest : Text) :
    s.walk column (t ++ rest) =
      (s.walk column t).bind fun u => u.walk (column + t.length) rest := by
  induction t generalizing s column with
  | nil => simp
  | cons c t ih =>
    rw [List.cons_append, walk_cons, walk_cons]
    cases s.step column c with
    | none => rfl
    | some u =>
      rw [Option.bind_some, Option.bind_some, ih, List.length_cons, Nat.add_assoc,
        Nat.add_comm 1]

/-- A text in which no comment starts is read to its end. -/
theorem run_of_walk (h : s.walk column t = some u) : s.run column t = u := by
  induction t generalizing s column with
  | nil => exact Option.some_inj.mp h
  | cons c t ih =>
    rw [walk_cons] at h
    obtain ⟨w, hstep, hwalk⟩ := Option.bind_eq_some_iff.mp h
    rw [run, hstep]
    exact ih hwalk

/-! ### Inside brackets -/

/-- **The scan stands inside brackets**, in no string, and blanks that it has passed over do
not separate anything. -/
structure Within (s : Scan) : Prop where
  quoting : s.quoting = .outside
  brackets : s.brackets ≠ []
  current : s.current ≠ []
  gap : s.gap = true → s.current.head?.any opensElement = true

/-- The scan before the next character, where no comma is due. -/
def settle (s : Scan) (c : Char) : Scan := { s with gap := false, previous := some c }

/-- **A character inside brackets** is taken for what it is, behind a comma if one is due. -/
theorem step_inside (hquoting : s.quoting = .outside) (hbrackets : s.brackets ≠ [])
    (hcurrent : s.current ≠ []) (hblank : isBlank c = false) (hcomment : c ≠ '#') :
    s.step column c = some ((({ s with previous := some c } : Scan).separate c).mark column c) := by
  rw [step_begin hquoting hblank hcomment, if_neg hbrackets, begin_of_ne_nil hcurrent]

theorem step_of_within (h : s.Within) (hblank : isBlank c = false) (hcomment : c ≠ '#') :
    s.step column c = some ((s.settle c).mark column c) := by
  have hseparate : ({ s with previous := some c } : Scan).separate c = s.settle c := by
    rw [separate]
    split
    · next hgap => rw [if_pos (by simp [h.gap hgap])]; rfl
    · next hgap =>
      rw [settle]
      simp only [Bool.not_eq_true] at hgap
      rw [← hgap]
  rw [step_inside h.quoting h.brackets h.current hblank hcomment, hseparate]

/-- **The scan after a text has been copied** to the current token. -/
structure Copied (out : Text) (s u : Scan) : Prop where
  within : u.Within
  current : u.current = out.reverse ++ s.current
  tokens : u.tokens = s.tokens
  start : u.start = s.start
  brackets : u.brackets = s.brackets
  issues : u.issues = s.issues

/-- **A text is copied as another one** wherever it stands inside brackets. -/
def Copies (t out : Text) : Prop :=
  ∀ (s : Scan) (column : Nat), s.Within → ∃ u, s.walk column t = some u ∧ Copied out s u

theorem Copied.refl (h : s.Within) : Copied [] s s := ⟨h, rfl, rfl, rfl, rfl, rfl⟩

theorem Copied.trans (h : Copied out s u) (h' : Copied out' u w) : Copied (out ++ out') s w := by
  refine ⟨h'.within, ?_, h'.tokens.trans h.tokens, h'.start.trans h.start,
    h'.brackets.trans h.brackets, h'.issues.trans h.issues⟩
  rw [h'.current, h.current, List.reverse_append, List.append_assoc]

theorem Copies.nil : Copies [] [] := fun s _ h => ⟨s, rfl, .refl h⟩

/-- Texts are copied one after the other. -/
theorem Copies.append (h : Copies t out) (h' : Copies t' out') :
    Copies (t ++ t') (out ++ out') := by
  intro s column hs
  obtain ⟨u, hwalk, hu⟩ := h s column hs
  obtain ⟨w, hwalk', hw⟩ := h' u (column + t.length) hu.within
  exact ⟨w, by rw [walk_append, hwalk, Option.bind_some, hwalk'], hu.trans hw⟩

/-- A character without a meaning of its own is copied. -/
theorem Copies.singleton (hc : isPlain c = true) : Copies [c] [c] := by
  obtain ⟨hblank, hcomment, -⟩ := isPlain_iff.mp hc
  intro s column hs
  refine ⟨(s.settle c).push c, ?_, ⟨hs.quoting, hs.brackets, List.cons_ne_nil _ _, ?_⟩, rfl, rfl,
    rfl, rfl, rfl⟩
  · rw [walk_cons, step_of_within hs hblank hcomment, Option.bind_some, walk_nil,
      mark_of_isPlain hc]
  · exact fun hgap => absurd hgap (by simp [push, settle])

theorem Copies.of_plain (h : ∀ c ∈ t, isPlain c = true) : Copies t t := by
  induction t with
  | nil => exact .nil
  | cons c t ih =>
    exact (Copies.singleton (h c List.mem_cons_self)).append
      (ih fun d hd => h d (List.mem_cons_of_mem _ hd))

/-! ### Blanks inside brackets -/

/-- Blanks are passed over. -/
theorem walk_blank (hquoting : s.quoting = .outside) (hbrackets : s.brackets ≠ [])
    (hb : Blank blanks) (hne : blanks ≠ []) (column : Nat) :
    ∃ previous, s.walk column blanks = some { s with gap := true, previous := previous } := by
  induction blanks generalizing s column with
  | nil => exact absurd rfl hne
  | cons c blanks ih =>
    obtain ⟨hc, hblanks⟩ := List.forall_mem_cons.mp hb
    have hstep : s.step column c = some { s with gap := true, previous := some c } := by
      rw [step_blank hquoting hc, if_neg hbrackets]
    rw [walk_cons, hstep, Option.bind_some]
    by_cases hnil : blanks = []
    · exact ⟨some c, by rw [hnil, walk_nil]⟩
    · exact ih (s := { s with gap := true, previous := some c }) hquoting hbrackets hblanks hnil _

/-- A character after blanks is taken as if there had been a comma or nothing instead. -/
theorem step_gap (h : s.Within) (hblank : isBlank c = false) (hcomment : c ≠ '#') (column : Nat)
    (previous : Option Char) :
    ({ s with gap := true, previous := previous } : Scan).step column c =
      (if s.current.head?.any opensElement = true ∨ closesElement c = true then s
        else s.push ',').step column c := by
  rw [step_inside (s := { s with gap := true, previous := previous }) h.quoting h.brackets h.current
    hblank hcomment, separate, if_pos rfl]
  by_cases hnone : s.current.head?.any opensElement = true ∨ closesElement c = true
  · rw [if_pos hnone, step_of_within h hblank hcomment]
    simp only [Bool.or_eq_true, if_pos hnone]
    rfl
  · have hcomma : (s.push ',').Within :=
      ⟨h.quoting, h.brackets, List.cons_ne_nil _ _, fun _ => rfl⟩
    rw [if_neg hnone, step_of_within hcomma hblank hcomment]
    simp only [Bool.or_eq_true, if_neg hnone]
    rfl

/-- **What blanks come to before a character**: to a comma, if an element ends before them and
another one begins after them, and else to nothing. -/
theorem walk_blank_append (h : s.Within) (hb : Blank blanks) (hblank : isBlank c = false)
    (hcomment : c ≠ '#') (column : Nat) (rest : Text) :
    s.walk column (blanks ++ c :: rest) =
      (if blanks = [] ∨ s.current.head?.any opensElement = true ∨ closesElement c = true then s
        else s.push ',').walk (column + blanks.length) (c :: rest) := by
  by_cases hnil : blanks = []
  · subst hnil
    rw [if_pos (.inl rfl)]
    rfl
  · obtain ⟨previous, hwalk⟩ := walk_blank h.quoting h.brackets hb hnil column
    rw [walk_append, hwalk, Option.bind_some, walk_cons, step_gap h hblank hcomment, walk_cons]
    simp only [hnil, false_or]

/-- Blanks after a comma, a colon or an opening bracket are dropped. -/
theorem exists_walk_blank (h : s.Within) (hopens : s.current.head?.any opensElement = true)
    (hb : Blank blanks) (column : Nat) : ∃ u, s.walk column blanks = some u ∧ Copied [] s u := by
  by_cases hnil : blanks = []
  · exact ⟨s, by rw [hnil, walk_nil], .refl h⟩
  · obtain ⟨previous, hwalk⟩ := walk_blank h.quoting h.brackets hb hnil column
    exact ⟨_, hwalk, ⟨h.quoting, h.brackets, h.current, fun _ => hopens⟩, rfl, rfl, rfl, rfl, rfl⟩

/-- **Blanks around a comma or a colon are dropped.** -/
theorem Copies.spaced (hc : c = ',' ∨ c = ':') (hbefore : Blank before) (hafter : Blank after) :
    Copies (before ++ c :: after) [c] := by
  have hplain : isPlain c = true := by rcases hc with rfl | rfl <;> decide
  have hmarks : opensElement c = true ∧ closesElement c = true := by
    rcases hc with rfl | rfl <;> decide
  obtain ⟨hblank, hcomment, -⟩ := isPlain_iff.mp hplain
  intro s column hs
  obtain ⟨u, hwalk, hu⟩ := Copies.singleton hplain s (column + before.length) hs
  obtain ⟨w, hwalk', hw⟩ := exists_walk_blank hu.within (by simp [hu.current, hmarks.1]) hafter
    (column + before.length + 1)
  refine ⟨w, ?_, hu.trans hw⟩
  rw [walk_blank_append hs hbefore hblank hcomment, if_pos (.inr (.inr hmarks.2)),
    ← List.singleton_append, walk_append, hwalk, Option.bind_some]
  exact hwalk'

/-- **A text that is an element inside brackets**: it is copied as another one, and blanks before it
or after it separate it from other elements. -/
structure Element (t out : Text) : Prop where
  copies : Copies t out
  begins : ∃ c rest, t = c :: rest ∧ isBlank c = false ∧ c ≠ '#' ∧ closesElement c = false
  ends : ∃ c ∈ out.getLast?, opensElement c = false

/-- **Blanks between two elements** come to a comma. -/
theorem Element.copies_blank (h : Element t out) (hb : Blank blanks) (hne : blanks ≠ [])
    (h' : Element t' out') : Copies (t ++ blanks ++ t') (out ++ [','] ++ out') := by
  obtain ⟨c, rest, rfl, hblank, hcomment, hc⟩ := h'.begins
  obtain ⟨d, hd, hends⟩ := h.ends
  intro s column hs
  obtain ⟨u, hwalk, hu⟩ := h.copies s column hs
  have hdue : ¬(blanks = [] ∨ u.current.head?.any opensElement = true ∨
      closesElement c = true) := by
    simp [hne, hc, hu.current, List.head?_append, Option.mem_def.mp hd, hends]
  have hcomma : Copied [','] u (u.push ',') :=
    ⟨⟨hu.within.quoting, hu.within.brackets, List.cons_ne_nil _ _, fun _ => rfl⟩, rfl, rfl, rfl,
      rfl, rfl⟩
  obtain ⟨w, hwalk', hw⟩ :=
    h'.copies (u.push ',') (column + t.length + blanks.length) hcomma.within
  refine ⟨w, ?_, (hu.trans hcomma).trans hw⟩
  rw [List.append_assoc, walk_append, hwalk, Option.bind_some,
    walk_blank_append hu.within hb hblank hcomment, if_neg hdue, hwalk']

/-- Elements with a text between them are an element again, if the three are copied so. -/
theorem Element.join {between mark : Text} (h : Element t out) (h' : Element t' out')
    (hcopies : Copies (t ++ between ++ t') (out ++ mark ++ out')) :
    Element (t ++ between ++ t') (out ++ mark ++ out') := by
  obtain ⟨c, rest, rfl, hc⟩ := h.begins
  obtain ⟨d, hd, hends⟩ := h'.ends
  refine ⟨hcopies, ⟨c, rest ++ between ++ t', by simp, hc⟩, d, ?_, hends⟩
  rw [List.getLast?_append, Option.mem_def.mp hd]
  rfl

/-! ### Brackets inside brackets -/

/-- **A text that may stand between brackets**, and stands for another one there: whatever comes
right before the closing bracket does not matter. -/
def Fills (t out : Text) : Prop :=
  ∀ (s : Scan) (column : Nat) (b : Bracket), s.Within → s.current.head?.any opensElement = true →
    ∃ u, Copied out s u ∧
      s.walk column (t ++ [b.closer]) = u.walk (column + t.length) [b.closer]

/-- Blanks may stand before and after what is between brackets. -/
theorem Copies.fills_blank (h : Copies t out) (hbefore : Blank before) (hafter : Blank after) :
    Fills (before ++ t ++ after) out := by
  intro s column b hs hopens
  obtain ⟨hblank, hcomment, -⟩ := closer_facts b
  have hcloses : closesElement b.closer = true := by cases b <;> decide
  obtain ⟨u, hwalk, hu⟩ := exists_walk_blank hs hopens hbefore column
  obtain ⟨w, hwalk', hw⟩ := h u (column + before.length) hu.within
  refine ⟨w, hu.trans hw, ?_⟩
  rw [List.append_assoc, List.append_assoc, walk_append, hwalk, Option.bind_some, walk_append,
    hwalk', Option.bind_some, walk_blank_append hw.within hafter hblank hcomment,
    if_pos (.inr (.inr hcloses))]
  simp only [List.length_append, Nat.add_assoc]

theorem Copies.fills (h : Copies t out) : Fills t out := by
  simpa using h.fills_blank .nil .nil

/-- The scan inside a bracket that it has opened. -/
def opened (s : Scan) (column : Nat) (b : Bracket) : Scan :=
  { (s.settle b.opener).push b.opener with brackets := (column, b) :: s.brackets }

theorem opened_mark (s : Scan) (column : Nat) (b : Bracket) :
    (s.settle b.opener).mark column b.opener = s.opened column b := by
  rw [mark, (opener_facts b).2.2.2.1]
  rfl

theorem opened_within (h : s.quoting = .outside) : (s.opened column b).Within :=
  ⟨h, List.cons_ne_nil _ _, List.cons_ne_nil _ _,
    fun hgap => absurd hgap (by simp [opened, push, settle])⟩

theorem opened_opens (s : Scan) (column : Nat) (b : Bracket) :
    (s.opened column b).current.head?.any opensElement = true := (opener_facts b).2.2.2.2

/-- **A closing bracket of the right kind** is taken for the end of what is inside. -/
theorem walk_closer {outer : List (Nat × Bracket)} {position : Nat} (h : s.Within)
    (hbrackets : s.brackets = (position, b) :: outer) :
    s.walk column [b.closer] =
      some { (s.settle b.closer).push b.closer with brackets := outer } := by
  obtain ⟨hblank, hcomment, hopener, hcloser⟩ := closer_facts b
  rw [walk_cons, step_of_within h hblank hcomment, Option.bind_some, walk_nil, mark]
  simp only [hopener, hcloser, close, settle, hbrackets, if_true, push, ite_self]

/-- **Brackets are copied with what is between them.** -/
theorem Copies.bracket (b : Bracket) (h : Fills t out) :
    Copies (b.opener :: t ++ [b.closer]) (b.opener :: out ++ [b.closer]) := by
  obtain ⟨hblank, hcomment, -⟩ := opener_facts b
  intro s column hs
  obtain ⟨u, hu, hwalk⟩ :=
    h (s.opened column b) (column + 1) b (opened_within hs.quoting) (opened_opens s column b)
  refine ⟨{ (u.settle b.closer).push b.closer with brackets := s.brackets }, ?_,
    ⟨hu.within.quoting, hs.brackets, List.cons_ne_nil _ _, ?_⟩, ?_, hu.tokens, hu.start, rfl,
    hu.issues⟩
  · rw [List.cons_append, walk_cons, step_of_within hs hblank hcomment, opened_mark,
      Option.bind_some, hwalk, walk_closer hu.within hu.brackets]
  · exact fun hgap => absurd hgap (by simp [push, settle])
  · simp [push, settle, hu.current, opened]

theorem Element.bracket (b : Bracket) (h : Fills t out) :
    Element (b.opener :: t ++ [b.closer]) (b.opener :: out ++ [b.closer]) := by
  obtain ⟨hblank, hcomment, -⟩ := opener_facts b
  refine ⟨.bracket b h, ⟨b.opener, t ++ [b.closer], rfl, hblank, hcomment, ?_⟩, b.closer, ?_, ?_⟩
  · cases b <;> decide
  · rw [List.getLast?_concat]
    rfl
  · cases b <;> decide

/-- A text of characters without a meaning of their own is an element, if no comma and no colon is
among them. -/
theorem Element.of_plain (h : Plain t) (hmarks : ∀ c ∈ t, c ≠ ',' ∧ c ≠ ':') : Element t t := by
  have hneither (c : Char) (hc : c ∈ t) : opensElement c = false ∧ closesElement c = false := by
    obtain ⟨-, -, -, -, hopener, hcloser⟩ := isPlain_iff.mp (h.chars c hc)
    obtain ⟨hcomma, hcolon⟩ := hmarks c hc
    unfold Bracket.ofOpener? at hopener
    unfold Bracket.ofCloser? at hcloser
    constructor
    · simp only [opensElement]
      split at hopener <;> simp_all
    · simp only [closesElement]
      split at hcloser <;> simp_all
  obtain ⟨c, rest, rfl⟩ := List.exists_cons_of_ne_nil h.nonempty
  obtain ⟨hblank, hcomment, -⟩ := isPlain_iff.mp (h.chars c List.mem_cons_self)
  refine ⟨.of_plain h.chars, ⟨c, rest, rfl, hblank, hcomment, (hneither c List.mem_cons_self).2⟩,
    (c :: rest).getLast h.nonempty, List.getLast?_eq_getLast_of_ne_nil _, ?_⟩
  exact (hneither _ (List.getLast_mem _)).1

/-! ### Strings inside brackets -/

/-- **A text that a string does not end in**: the quote stands only behind backslashes. -/
def Shielded (quote : Char) (t : Text) : Prop :=
  t.IsChain fun before c => c = quote → before = '\\'

/-- A character that does not end the string that the scan is in. -/
theorem step_nested {quote : Char} (hquoting : s.quoting = .nested quote)
    (hc : c = quote → s.previous = some '\\') :
    s.step column c = some { s with current := c :: s.current, previous := some c } := by
  refine step_quoted (by simp [hquoting]) ?_ column
  rintro (⟨htop, -⟩ | ⟨hnested, hne⟩)
  · simp [hquoting] at htop
  · rw [hquoting, Quoting.nested.injEq] at hnested
    exact hne (hc hnested.symm)

/-- A text that a string does not end in is taken into the string as it is. -/
theorem walk_of_shielded {quote before : Char} (s : Scan) (column : Nat)
    (hquoting : s.quoting = .nested quote) (hprevious : s.previous = some before)
    (h : Shielded quote (before :: t)) :
    s.walk column t = some { s with
      current := t.reverse ++ s.current, previous := (before :: t).getLast? } := by
  induction t generalizing s column before with
  | nil =>
    rw [walk_nil, List.getLast?_singleton, ← hprevious]
    rfl
  | cons c t ih =>
    obtain ⟨hc, ht⟩ := List.isChain_cons_cons.mp h
    have hwalk := ih { s with current := c :: s.current, previous := some c } (column + 1)
      hquoting rfl ht
    rw [walk_cons, step_nested hquoting fun h => by rw [hprevious, hc h], Option.bind_some, hwalk]
    simp [List.getLast?_cons_cons]

/-- **What a string comes to** inside brackets before it ends. -/
theorem walk_quoted {quote : Char} (hquote : quote = '"' ∨ quote = '\'') {body : Text}
    (hs : s.Within) (hbody : Shielded quote (quote :: body)) :
    s.walk column (quote :: body) = some { s with
      current := (quote :: body).reverse ++ s.current
      gap := false
      previous := (quote :: body).getLast?
      quoting := .nested quote } := by
  obtain ⟨hblank, hcomment, hopener, hcloser⟩ : isBlank quote = false ∧ quote ≠ '#' ∧
      Bracket.ofOpener? quote = none ∧ Bracket.ofCloser? quote = none := by
    rcases hquote with rfl | rfl <;> decide
  have hmark : (s.settle quote).mark column quote = { s with
      current := quote :: s.current, gap := false, previous := some quote
      quoting := .nested quote } := by
    have hnested : (quote = '"' ∨ quote = '\'') ∧ (s.settle quote).brackets ≠ [] :=
      ⟨hquote, hs.brackets⟩
    simp only [mark, hopener, hcloser, if_pos hnested]
    rfl
  have hwalk := walk_of_shielded { s with
    current := quote :: s.current, gap := false, previous := some quote, quoting := .nested quote }
    (column + 1) rfl rfl hbody
  rw [walk_cons, step_of_within hs hblank hcomment, Option.bind_some, hmark, hwalk]
  simp

/-- A string ends at its quote, unless a backslash stands right before that. -/
theorem walk_string {quote : Char} (hquote : quote = '"' ∨ quote = '\'') {body : Text}
    (hs : s.Within) (hbody : Shielded quote (quote :: body)) :
    s.walk column (quote :: body ++ [quote]) = some { s with
      current := (quote :: body ++ [quote]).reverse ++ s.current
      gap := false
      previous := some quote
      quoting :=
        if (quote :: body).getLast? = some '\\' then .nested quote else .outside } := by
  rw [walk_append, walk_quoted hquote hs hbody, Option.bind_some, walk_cons]
  by_cases hlast : (quote :: body).getLast? = some '\\'
  · rw [step_nested rfl fun _ => hlast, if_pos hlast]
    simp
  · rw [step_unquoted (.inr ⟨rfl, hlast⟩), if_neg hlast]
    simp [push]

/-- **A string is copied as it is**, if a backslash does not stand right before its end. -/
theorem Copies.string {quote : Char} (hquote : quote = '"' ∨ quote = '\'') {body : Text}
    (hbody : Shielded quote (quote :: body)) (hlast : (quote :: body).getLast? ≠ some '\\') :
    Copies (quote :: body ++ [quote]) (quote :: body ++ [quote]) := by
  intro s column hs
  refine ⟨_, walk_string hquote hs hbody, ⟨if_neg hlast, hs.brackets, by simp, ?_⟩, rfl, rfl, rfl,
    rfl, rfl⟩
  exact fun hgap => absurd hgap (by simp)

theorem Element.string {quote : Char} (hquote : quote = '"' ∨ quote = '\'') {body : Text}
    (hbody : Shielded quote (quote :: body)) (hlast : (quote :: body).getLast? ≠ some '\\') :
    Element (quote :: body ++ [quote]) (quote :: body ++ [quote]) := by
  obtain ⟨hblank, hcomment, hopens, hcloses⟩ : isBlank quote = false ∧ quote ≠ '#' ∧
      opensElement quote = false ∧ closesElement quote = false := by
    rcases hquote with rfl | rfl <;> decide
  refine ⟨.string hquote hbody hlast, ⟨quote, body ++ [quote], rfl, hblank, hcomment, hcloses⟩,
    quote, ?_, hopens⟩
  rw [List.getLast?_concat]
  rfl

/-! ### Strings that do not end -/

/-- Closing brackets takes no report back. -/
theorem mem_issues_closeBrackets {issue : TokenIssue} (s : Scan) (h : issue ∈ s.issues)
    (brackets : List (Nat × Bracket)) : issue ∈ (s.closeBrackets brackets).issues := by
  induction brackets generalizing s with
  | nil => exact h
  | cons bracket brackets ih => exact ih _ (List.mem_cons_of_mem _ h)

/-- **A string that is open at the end of the text is reported.** -/
theorem unterminated_mem_finish (h : s.quoting ≠ .outside) (length : Nat) :
    ⟨length, .unterminated⟩ ∈ (s.finish length).issues := by
  have hclosed : ⟨length, .unterminated⟩ ∈ (s.closeString length).issues := by
    rw [closeString]
    split
    · next houtside => exact absurd houtside h
    · exact List.mem_cons_self
    · exact List.mem_cons_self
  have hissues (u : Scan) : u.endToken.issues = u.issues := by
    rw [endToken]
    split <;> rfl
  rw [Scan.finish, hissues]
  exact mem_issues_closeBrackets _ hclosed _

/-! ### Between blanks -/

/-- **The scan stands where a token may start.** -/
structure Rests (s : Scan) : Prop where
  quoting : s.quoting = .outside
  brackets : s.brackets = []
  current : s.current = []
  gap : s.gap = false
  previous : s.previous.all isBlank = true

/-- **The scan holds a token** that started at a column and may end here. -/
structure Holds (column : Nat) (out : Text) (s u : Scan) : Prop where
  quoting : u.quoting = .outside
  brackets : u.brackets = []
  gap : u.gap = false
  current : u.current = out.reverse
  nonempty : out ≠ []
  start : u.start = column
  tokens : u.tokens = s.tokens
  issues : u.issues = s.issues

/-- **A text is a token**, given as another text, wherever it stands between blanks. -/
def Whole (t out : Text) : Prop :=
  ∀ (s : Scan) (column : Nat), s.Rests → ∃ u, s.walk column t = some u ∧ Holds column out s u

/-- Outside of brackets a character without a meaning of its own goes on with a token or starts
one. -/
theorem step_plain (hquoting : s.quoting = .outside) (hbrackets : s.brackets = [])
    (hc : isPlain c = true) (column : Nat) :
    s.step column c = some ((s.begin column c).push c) := by
  obtain ⟨hblank, hcomment, hdouble, -⟩ := isPlain_iff.mp hc
  rw [step_begin hquoting hblank hcomment, if_pos hbrackets, if_neg fun h => hdouble h.1,
    mark_of_isPlain hc]

/-- Characters without a meaning of their own go on with a token. -/
theorem walk_plain (s : Scan) (column : Nat) (hquoting : s.quoting = .outside)
    (hbrackets : s.brackets = []) (hcurrent : s.current ≠ []) (h : ∀ c ∈ t, isPlain c = true) :
    ∃ previous, s.walk column t =
      some { s with current := t.reverse ++ s.current, previous := previous } := by
  induction t generalizing s column with
  | nil => exact ⟨s.previous, rfl⟩
  | cons c t ih =>
    have hc := h c List.mem_cons_self
    have hstep : s.step column c =
        some { s with current := c :: s.current, previous := some c } := by
      rw [step_plain hquoting hbrackets hc, begin_of_ne_nil hcurrent]
      rfl
    obtain ⟨previous, hwalk⟩ :=
      ih { s with current := c :: s.current, previous := some c } (column + 1) hquoting hbrackets
        (List.cons_ne_nil _ _) fun d hd => h d (List.mem_cons_of_mem _ hd)
    refine ⟨previous, ?_⟩
    rw [walk_cons, hstep, Option.bind_some, hwalk]
    simp

/-- A text of characters without a meaning of their own is a token. -/
theorem Whole.of_plain (h : Plain t) : Whole t t := by
  obtain ⟨c, t, rfl⟩ := List.exists_cons_of_ne_nil h.nonempty
  have hc := h.chars c List.mem_cons_self
  intro s column hs
  have hstep : s.step column c =
      some { s with start := column, current := [c], previous := some c } := by
    rw [step_plain hs.quoting hs.brackets hc, begin_of_nil hs.current, push, hs.current]
  obtain ⟨previous, hwalk⟩ :=
    walk_plain { s with start := column, current := [c], previous := some c } (column + 1)
      hs.quoting hs.brackets (List.cons_ne_nil _ _)
      fun d hd => h.chars d (List.mem_cons_of_mem _ hd)
  refine ⟨{ s with start := column, current := t.reverse ++ [c], previous := previous }, ?_,
    hs.quoting, hs.brackets, hs.gap, List.reverse_cons.symm, List.cons_ne_nil _ _, rfl, rfl, rfl⟩
  rw [walk_cons, hstep, Option.bind_some, hwalk]

/-- The first bracket of a token. -/
theorem step_opener (hs : s.Rests) (column : Nat) (b : Bracket) :
    s.step column b.opener = some (({ s with start := column } : Scan).opened column b) := by
  obtain ⟨hblank, hcomment, hdouble, -⟩ := opener_facts b
  rw [step_begin hs.quoting hblank hcomment, if_pos hs.brackets, if_neg fun h => hdouble h.1,
    mark_opener, begin_of_nil hs.current]
  simp [opened, settle, push, hs.gap]

/-- **Brackets are a token with what is between them.** -/
theorem Whole.bracket (b : Bracket) (h : Fills t out) :
    Whole (b.opener :: t ++ [b.closer]) (b.opener :: out ++ [b.closer]) := by
  intro s column hs
  obtain ⟨u, hu, hwalk⟩ := h (({ s with start := column } : Scan).opened column b) (column + 1) b
    (opened_within hs.quoting) (opened_opens _ column b)
  refine ⟨{ (u.settle b.closer).push b.closer with brackets := [] }, ?_, hu.within.quoting, rfl,
    rfl, ?_, List.cons_ne_nil _ _, hu.start, hu.tokens, hu.issues⟩
  · have hbrackets : u.brackets = [(column, b)] := by rw [hu.brackets, opened, hs.brackets]
    rw [List.cons_append, walk_cons, step_opener hs, Option.bind_some, hwalk,
      walk_closer hu.within hbrackets]
  · simp [push, settle, hu.current, opened, hs.current]

/-- What stands in a string that started its token is taken as it is. -/
theorem walk_top (s : Scan) (column : Nat) (hquoting : s.quoting = .top) (h : '"' ∉ t) :
    ∃ previous, s.walk column t =
      some { s with current := t.reverse ++ s.current, previous := previous } := by
  induction t generalizing s column with
  | nil => exact ⟨s.previous, rfl⟩
  | cons c t ih =>
    obtain ⟨hc, ht⟩ := not_or.mp (mt List.mem_cons.mpr h)
    have hstep : s.step column c =
        some { s with current := c :: s.current, previous := some c } := by
      refine step_quoted (by simp [hquoting]) ?_ column
      rintro (⟨-, hquote⟩ | ⟨hnested, -⟩)
      · exact hc hquote.symm
      · simp [hquoting] at hnested
    obtain ⟨previous, hwalk⟩ :=
      ih { s with current := c :: s.current, previous := some c } (column + 1) hquoting ht
    refine ⟨previous, ?_⟩
    rw [walk_cons, hstep, Option.bind_some, hwalk]
    simp

/-- **A text between double quotes is a token**, whatever else is in it. -/
theorem Whole.string (h : '"' ∉ t) : Whole ('"' :: t ++ ['"']) ('"' :: t ++ ['"']) := by
  intro s column hs
  have hopen : s.step column '"' =
      some { s with start := column, current := ['"'], previous := some '"', quoting := .top } := by
    rw [step_begin hs.quoting (by decide) (by decide), if_pos hs.brackets,
      if_pos ⟨rfl, hs.previous⟩, begin_of_nil hs.current, push, hs.current]
  obtain ⟨previous, hwalk⟩ := walk_top
    { s with start := column, current := ['"'], previous := some '"', quoting := .top }
    (column + 1) rfl h
  refine ⟨{ s with
      start := column, current := ('"' :: t ++ ['"']).reverse, previous := some '"' }, ?_,
    hs.quoting, hs.brackets, hs.gap, rfl, List.cons_ne_nil _ _, rfl, rfl, rfl⟩
  rw [walk_append, walk_cons, hopen, Option.bind_some, hwalk, Option.bind_some, walk_cons,
    step_unquoted (.inl ⟨rfl, rfl⟩)]
  simp [push, hs.quoting]

/-! ### Tokens in a row -/

/-- A token ends at a space, and the next one may start after it. -/
theorem Holds.space (h : Holds column out s u) (position : Nat) :
    ∃ w, u.walk position [' '] = some w ∧ w.Rests ∧ w.issues = s.issues ∧
      w.tokens.map Piece.text = out :: s.tokens.map Piece.text := by
  have hempty : u.current.isEmpty = false := by simpa [h.current] using h.nonempty
  have hstep : u.step position ' ' = some
      { u with
        tokens := ⟨u.start, u.current.reverse⟩ :: u.tokens
        current := []
        previous := some ' ' } := by
    rw [step_blank h.quoting (by decide), if_pos h.brackets, endToken, if_neg (by simp [hempty])]
  refine ⟨{ u with
      tokens := ⟨u.start, u.current.reverse⟩ :: u.tokens, current := [], previous := some ' ' }, ?_,
    ⟨h.quoting, h.brackets, rfl, h.gap, rfl⟩, h.issues, ?_⟩
  · rw [walk_cons, hstep, Option.bind_some, walk_nil]
  · simp [h.current, h.tokens]

/-- A token ends at the end of the text. -/
theorem Holds.finish (h : Holds column out s u) (length : Nat) :
    (u.finish length).issues = s.issues ∧
      (u.finish length).tokens = ⟨column, out⟩ :: s.tokens := by
  simp [Scan.finish, closeString, h.quoting, h.brackets, closeBrackets, endToken, h.current,
    h.nonempty, h.start, h.tokens, h.issues]

/-- **Tokens with spaces between them** are found one after the other. -/
theorem exists_walk_join {ts outs : List Text} (h : List.Forall₂ Whole ts outs) (hs : s.Rests)
    (column length : Nat) :
    ∃ u, s.walk column (Text.join [' '] ts) = some u ∧ (u.finish length).issues = s.issues ∧
      (u.finish length).tokens.map Piece.text = outs.reverse ++ s.tokens.map Piece.text := by
  induction h generalizing s column with
  | nil =>
    refine ⟨s, rfl, ?_⟩
    simp [Scan.finish, closeString, hs.quoting, hs.brackets, closeBrackets, endToken, hs.current]
  | @cons t out ts outs ht hts ih =>
    obtain ⟨u, hwalk, hu⟩ := ht s column hs
    cases hts with
    | nil =>
      obtain ⟨hissues, htokens⟩ := hu.finish length
      exact ⟨u, hwalk, hissues, by simp [htokens]⟩
    | @cons t' out' ts outs ht' hts =>
      obtain ⟨w, hspace, hw, hissues, htokens⟩ := hu.space (column + t.length)
      obtain ⟨z, hrest, hissues', htokens'⟩ := ih hw (column + t.length + 1)
      refine ⟨z, ?_, hissues'.trans hissues, ?_⟩
      · rw [Text.join, walk_append, walk_append, hwalk, Option.bind_some, hspace, Option.bind_some,
          List.length_append, List.length_singleton, ← Nat.add_assoc, hrest]
        exact List.cons_ne_nil _ _
      · rw [htokens', htokens]
        simp

theorem rests_empty : empty.Rests := ⟨rfl, rfl, rfl, rfl, rfl⟩

end Scan

open Scan (Whole)

/-- **A token by itself is the value of the text**, and there is nothing to repair. -/
theorem tokenize_whole {t out : Text} (h : Whole t out) :
    tokenize t 1 = ⟨[some ⟨0, out⟩], []⟩ := by
  obtain ⟨u, hwalk, hu⟩ := h Scan.empty 0 Scan.rests_empty
  obtain ⟨hissues, htokens⟩ := hu.finish t.length
  have htokensOf : tokensOf t = ([⟨0, out⟩], []) := by
    rw [tokensOf, Scan.run_of_walk hwalk, htokens, hissues]
    rfl
  rw [tokenize, htokensOf]
  rfl

/-- **Tokens with spaces between them are the values of the text**, and there is nothing to
repair. -/
theorem tokenize_join {ts outs : List Text} (h : List.Forall₂ Whole ts outs) :
    ∃ pieces : List Piece, pieces.map Piece.text = outs ∧
      tokenize (Text.join [' '] ts) ts.length = ⟨pieces.map some, []⟩ := by
  obtain ⟨u, hwalk, hissues, htokens⟩ :=
    Scan.exists_walk_join h Scan.rests_empty 0 (Text.join [' '] ts).length
  obtain ⟨pieces, hpieces⟩ :
      ∃ pieces, pieces = (u.finish (Text.join [' '] ts).length).tokens.reverse := ⟨_, rfl⟩
  have houts : pieces.map Piece.text = outs := by
    rw [hpieces, List.map_reverse, htokens]
    simp [Scan.empty]
  have htokensOf : tokensOf (Text.join [' '] ts) = (pieces, []) := by
    rw [tokensOf, Scan.run_of_walk hwalk, hissues, hpieces]
    rfl
  have hlength : pieces.length = ts.length := by
    rw [h.length_eq, ← houts, List.length_map]
  refine ⟨pieces, houts, ?_⟩
  simp [tokenize, htokensOf, ← hlength]

end DesignRecipe

import DesignRecipe.Proofs.Outline.Replacement
import DesignRecipe.Proofs.Outline.WellFormed
import Mathlib.Data.Option.Basic

/-!
# The settings do not change what is read

The recognized types are looked at in the middle of example lines and in/outs lines, and the
width of a level at every comment of a body outline. What depends on them stays where it is,
though: the values of an example, the types of the outside and the level of an entry. Whether a
line stops the reading, opens a recipe, adds an example or adds an entry is settled by the line
and the state alone.

So two readings of the same lines with two settings go side by side (`Session.SameCourse`): they
note the same lines, are in the same states, and hold recipes of the same shape
(`Recipe.SameShape`). A line stops both of them or none (`Matched`).
-/

namespace DesignRecipe

/-- **Recipes that differ only by what the settings decide**: the values of examples, the types
of the outside and the levels of the outline. -/
structure Recipe.SameShape (r r' : Recipe) : Prop where
  name : r'.name = r.name
  argTypes : r'.argTypes = r.argTypes
  returnType : r'.returnType = r.returnType
  purpose : r'.purpose = r.purpose
  argNames : r'.argNames = r.argNames
  returnName : r'.returnName = r.returnName
  lines : r'.lines = r.lines
  sideEffects : r'.sideEffects = r.sideEffects
  /-- There are as many examples, of as many values and with the same explanations. -/
  examples : r'.examples.map (fun e => (e.args.length, e.explanation)) =
    r.examples.map fun e => (e.args.length, e.explanation)
  outline : r'.outline.map OutlineEntry.text = r.outline.map OutlineEntry.text

theorem Recipe.SameShape.refl (r : Recipe) : r.SameShape r :=
  ⟨rfl, rfl, rfl, rfl, rfl, rfl, rfl, rfl, rfl, rfl⟩

namespace Outline

/-- The results of two readings that both succeed, with related outcomes, or both stop at the
same diagnostic. -/
inductive Matched {α : Type} (R : α → α → Prop) : Except Abort α → Except Abort α → Prop
  | ok {x y : α} : R x y → Matched R (.ok x) (.ok y)
  | error {a b : Abort} : b.critical = a.critical → Matched R (.error a) (.error b)

section Matched

variable {α : Type} {R : α → α → Prop} {x : α} {a : Abort} {e : Except Abort α}

theorem Matched.exists_ok (h : Matched R (.ok x) e) : ∃ y, e = .ok y ∧ R x y := by
  cases h with
  | ok hxy => exact ⟨_, rfl, hxy⟩

theorem Matched.exists_error (h : Matched R (.error a) e) :
    ∃ b, e = .error b ∧ b.critical = a.critical := by
  cases h with
  | error hcritical => exact ⟨_, rfl, hcritical⟩

end Matched

/-! ### The readers of sections -/

/-- Whether there is an example, for how many arguments and with what explanation, does not
depend on the recognized types. -/
theorem ExampleLine.shape_added (recognized recognized' : List Text) {r r' : Recipe}
    (h : r.SameShape r') (payload : Payload) :
    (added recognized' r' payload).map (fun e => (e.args.length, e.explanation)) =
      (added recognized r payload).map fun e => (e.args.length, e.explanation) := by
  simp only [added, read, h.argTypes, h.returnType]
  split
  · rfl
  · split
    · rfl
    · simp [argumentsOf, length_valuesAt]

namespace Session

variable {options options' : Options} {s s' t : Session} {lines : List Text} {line : Text}
  {r r' : Recipe} {a b : Abort} {i : Nat}

/-- **A line of a section keeps the shapes of two recipes the same**, whatever the settings. -/
theorem sameShape_readSection (options options' : Options) (heading : Heading) (text : Text)
    (h : r.SameShape r') : (readSection options heading text r).1.SameShape
      (readSection options' heading text r').1 := by
  have hlines (line : Text) : r'.lines ++ [line] = r.lines ++ [line] := by rw [h.lines]
  cases heading with
  | purpose =>
    refine ⟨h.name, h.argTypes, h.returnType, rfl, ?_, ?_, hlines _, h.sideEffects, h.examples,
      h.outline⟩
    · simp [readSection, record, Purpose.apply, h.argNames, h.argTypes]
    · simp [readSection, record, Purpose.apply, h.argNames, h.returnName]
  | inOuts =>
    refine ⟨h.name, h.argTypes, h.returnType, h.purpose, h.argNames, h.returnName, hlines _, ?_,
      h.examples, h.outline⟩
    simp [readSection, record, InOuts.apply, h.sideEffects]
  | «example» =>
    simp only [readSection, ExampleLine.fst_apply]
    refine ⟨h.name, h.argTypes, h.returnType, h.purpose, h.argNames, h.returnName, hlines _,
      h.sideEffects, ?_, h.outline⟩
    have hadded := ExampleLine.shape_added options.recognizedTypes options'.recognizedTypes h
      (Payload.ofLine text)
    simp only [record, List.map_append, h.examples, ← Option.toList_map, hadded]
  | none => exact { h with lines := hlines _ }
  | contract => exact { h with lines := hlines _ }

/-- **Every line keeps the shapes of two recipes under construction the same.** -/
theorem sameShape_currentAfter (options options' : Options) (state : State) (text : Text)
    {current current' : Option Recipe} (h : Option.Rel Recipe.SameShape current current') :
    Option.Rel Recipe.SameShape (currentAfter options state text current)
      (currentAfter options' state text current') := by
  simp only [currentAfter]
  split
  · -- A contract line forgets the recipe before it.
    split
    · exact .some (.refl _)
    · exact .none
  · cases state.region with
    | recipe =>
      cases h with
      | none => exact .none
      | some h => exact .some (sameShape_readSection options options' _ text h)
    | body =>
      simp only
      split
      · cases h with
        | none => exact .none
        | some h =>
          refine .some { h with outline := ?_ }
          simp [h.outline, Body.entry]
      · exact h
    | outside => exact h
    | block => exact h

/-! ### Two readings side by side -/

/-- **Readings that go side by side**: they have taken note of the same lines and are in the same
state, and their recipes are of the same shape, one by one. -/
structure SameCourse (s t : Session) : Prop where
  lineCount : t.lineCount = s.lineCount
  line : t.line = s.line
  previousLine : t.previousLine = s.previousLine
  state : t.state = s.state
  current : Option.Rel Recipe.SameShape s.current t.current
  finished : List.Forall₂ Recipe.SameShape s.finished t.finished

theorem SameCourse.start : SameCourse start start := ⟨rfl, rfl, rfl, rfl, .none, .nil⟩

theorem SameCourse.toList_current (h : SameCourse s t) :
    List.Forall₂ Recipe.SameShape s.current.toList t.current.toList := by
  obtain ⟨-, -, -, -, hcurrent, -⟩ := h
  generalize s.current = current at hcurrent
  generalize t.current = current' at hcurrent
  cases hcurrent with
  | none => exact .nil
  | some hshape => exact .cons hshape .nil

theorem SameCourse.current_eq_none (h : SameCourse s t) : t.current = none ↔ s.current = none := by
  rw [← Option.toList_eq_nil_iff, ← Option.toList_eq_nil_iff, ← List.length_eq_zero_iff,
    ← List.length_eq_zero_iff, h.toList_current.length_eq]

/-- The column of the diagnostic that stops the reading at a line. -/
theorem column_critical_of_feed (h : s.feed options line = .error a) :
    a.critical.column =
      if s.state.next line = ⟨.recipe, .contract⟩ then
        (Payload.ofLine (Text.dropLineEnd line)).column +
          Contract.arrowColumn (Payload.ofLine (Text.dropLineEnd line)).text
            (Contract.wordsOf (Payload.ofLine (Text.dropLineEnd line)).text)
      else 0 := by
  have ho := outcome_feed options s line
  have hnext := state_advance_dropLineEnd s line
  rw [h] at ho
  cases ho with
  | arrowless hstate hread =>
    rw [hnext] at hstate
    rw [if_pos hstate]
    rw [Contract.read] at hread
    split at hread
    · exact absurd hread (by simp)
    · rw [← Except.error.inj hread]
      rfl
  | ownerless howned _ =>
    rw [hnext] at howned
    rw [if_neg howned.ne_contract]
    rfl

/-- A line that stops two readings in the same state stops them with the same diagnostic. -/
theorem critical_eq_of_feed (hstate : t.state = s.state) (hcount : t.lineCount = s.lineCount)
    (hs : s.feed options line = .error a) (ht : t.feed options' line = .error b) :
    b.critical = a.critical := by
  obtain ⟨hseverity, hline, hsource, hproblem⟩ := critical_of_feed hs
  obtain ⟨hseverity', hline', hsource', hproblem'⟩ := critical_of_feed ht
  have hcolumn := column_critical_of_feed hs
  have hcolumn' := column_critical_of_feed ht
  rw [hstate] at hproblem' hcolumn'
  rw [hcount] at hline'
  cases hb : b.critical
  cases ha : a.critical
  simp only [ha, hb] at *
  simp [*]

/-- **One line keeps two readings side by side**, or stops both. -/
theorem SameCourse.feed (h : SameCourse s t) (options options' : Options) (line : Text) :
    Matched SameCourse (s.feed options line) (t.feed options' line) := by
  have hnext : t.state.next line = s.state.next line := by rw [h.state]
  cases hs : s.feed options line with
  | error a =>
    have herror := exists_feed_eq_error_iff.mp ⟨a, hs⟩
    rw [← hnext, ← h.current_eq_none] at herror
    obtain ⟨b, ht⟩ : ∃ b, t.feed options' line = .error b := exists_feed_eq_error_iff.mpr herror
    rw [ht]
    exact .error (critical_eq_of_feed h.state h.lineCount hs ht)
  | ok s' =>
    obtain ⟨harrow, howned⟩ := not_stopped_of_feed hs
    rw [← hnext] at harrow howned
    obtain ⟨t', ht⟩ : ∃ t', t.feed options' line = .ok t' := exists_feed_of_not_stopped harrow
      fun hnone => howned (h.current_eq_none.mp hnone)
    rw [ht]
    have hnotes := notes_of_feed hs
    have hnotes' := notes_of_feed ht
    refine .ok ⟨?_, ?_, ?_, ?_, ?_, ?_⟩
    · rw [hnotes'.lineCount, hnotes.lineCount, h.lineCount]
    · rw [hnotes'.line, hnotes.line]
    · rw [hnotes'.previousLine, hnotes.previousLine, h.line]
    · rw [hnotes'.state, hnotes.state, hnext]
    · rw [current_of_feed ht, current_of_feed hs, hnext]
      exact sameShape_currentAfter options options' _ _ h.current
    · rw [finished_of_feed ht, finished_of_feed hs, hnext]
      refine List.rel_append h.finished ?_
      split
      · exact h.toList_current
      · exact .nil

/-- **A run keeps two readings side by side** up to the line that stops both. -/
theorem SameCourse.feedAll (h : SameCourse s t) (options options' : Options) (lines : List Text) :
    Matched SameCourse (s.feedAll options lines) (t.feedAll options' lines) := by
  induction lines generalizing s t with
  | nil => exact .ok h
  | cons line lines ih =>
    rw [Session.feedAll, Session.feedAll]
    have hfeed := h.feed options options' line
    cases hs : s.feed options line with
    | ok s' =>
      rw [hs] at hfeed
      obtain ⟨t', ht, h'⟩ := hfeed.exists_ok
      rw [ht]
      exact ih h'
    | error a =>
      rw [hs] at hfeed
      obtain ⟨b, hb, hcritical⟩ := hfeed.exists_error
      rw [hb]
      exact .error hcritical

/-- Two readings side by side end with recipes of the same shape, or are both refused. -/
theorem SameCourse.finish (h : SameCourse s t) :
    Matched (fun out out' => List.Forall₂ Recipe.SameShape out.recipes out'.recipes)
      s.finish t.finish := by
  rw [Session.finish, Session.finish]
  by_cases hnone : s.current = none
  · rw [hnone, h.current_eq_none.mpr hnone]
    refine .error ?_
    simp [abort, h.lineCount, h.line]
  · have hnone' : ¬t.current = none := fun h' => hnone (h.current_eq_none.mp h')
    rw [if_neg (by simpa using hnone), if_neg (by simpa using hnone')]
    refine .ok ?_
    simp only [finished_close]
    exact List.rel_append h.finished h.toList_current

end Session

open Session

/-- **The settings never change the structure that is read.** Read the same lines with two
settings. Up to any line both readings have gone through the same state, and hold recipes of the
same shape, or both have stopped with the same diagnostic; so they abort at the same line. In the
end both give the same recipes but for the values of examples, the types of the outside and the
levels of the outlines, or both are refused with the same diagnostic. -/
theorem matched_readLines (options options' : Options) (lines : List Text) :
    (∀ i, Matched SameCourse (start.feedAll options (lines.take i))
        (start.feedAll options' (lines.take i))) ∧
      (∀ i a, AbortsAt options lines i a →
        ∃ b, AbortsAt options' lines i b ∧ b.critical = a.critical) ∧
      Matched (fun out out' => List.Forall₂ Recipe.SameShape out.recipes out'.recipes)
        (readLines options lines) (readLines options' lines) := by
  have hrun (lines : List Text) := SameCourse.start.feedAll options options' lines
  refine ⟨fun i => hrun (lines.take i), ?_, ?_⟩
  · rintro i a ⟨s, line, hs, hline, hfeed⟩
    have hbefore := hrun (lines.take i)
    rw [hs] at hbefore
    obtain ⟨t, ht, hcourse⟩ := hbefore.exists_ok
    have hstop := hcourse.feed options options' line
    rw [hfeed] at hstop
    obtain ⟨b, hfeed', hcritical⟩ := hstop.exists_error
    exact ⟨b, ⟨t, line, ht, hline, hfeed'⟩, hcritical⟩
  · have hall := hrun lines
    rw [readLines, readLines]
    cases hs : start.feedAll options lines with
    | error a =>
      rw [hs] at hall
      obtain ⟨b, ht, hcritical⟩ := hall.exists_error
      rw [ht]
      exact .error hcritical
    | ok s =>
      rw [hs] at hall
      obtain ⟨t, ht, hcourse⟩ := hall.exists_ok
      rw [ht]
      exact hcourse.finish

theorem matched_readLines_sample :
    (∃ a b, AbortsAt .standard arrowlessSample 4 a ∧ AbortsAt ⟨[], 0⟩ arrowlessSample 4 b ∧
      b.critical = a.critical) ∧
    ∃ out out', readLines .standard wellFormedSample = .ok out ∧
      readLines ⟨[], 0⟩ wellFormedSample = .ok out' ∧
      out.recipes.map Recipe.inputs = [some ("int" : Text)] ∧
      out'.recipes.map Recipe.inputs = [none] ∧
      List.Forall₂ Recipe.SameShape out.recipes out'.recipes := by
  constructor
  · obtain ⟨-, haborts, -⟩ := matched_readLines .standard ⟨[], 0⟩ arrowlessSample
    obtain ⟨a, ha⟩ : ∃ a, AbortsAt .standard arrowlessSample 4 a := ⟨_, _, _, rfl, rfl, rfl⟩
    obtain ⟨b, hb, hcritical⟩ := haborts 4 a ha
    exact ⟨a, b, ha, hb, hcritical⟩
  · obtain ⟨-, -, hread⟩ := matched_readLines .standard ⟨[], 0⟩ wellFormedSample
    obtain ⟨out, hout, hinputs⟩ : ∃ out, readLines .standard wellFormedSample = .ok out ∧
        out.recipes.map Recipe.inputs = [some ("int" : Text)] := ⟨_, rfl, rfl⟩
    rw [hout] at hread
    obtain ⟨out', hout', hshape⟩ := hread.exists_ok
    refine ⟨out, out', hout, hout', hinputs, ?_, hshape⟩
    obtain rfl := Except.ok.inj hout'
    rfl

end DesignRecipe.Outline

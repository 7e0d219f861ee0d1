import DesignRecipe.Proofs.Outline.Accounting
import DesignRecipe.Proofs.Text.Lines

/-!
# Recipes are well formed

The parts of a recipe hang together (`Recipe.WellFormed`): there is a name or a place for one
for each argument, and no argument has a name before the purpose is known and every one has
one from then on; each example has as many values as there are arguments; a type of the
outside is one of the settings; what is said about an example is a comment, and so is every
entry of the outline.

The lines of a recipe come in any order and any number, and each kind of line writes some of
these parts and reads others. So every reader is shown to keep all of them, whatever recipe it
is handed: a purpose line that has fewer names than the one before it leaves the later names as
they are, and an example line counts the arguments by the contract and not by the values that
it has.
-/

namespace DesignRecipe

/-- **What every recipe keeps to**, where some types are recognized. -/
structure Recipe.WellFormed (recognized : List Text) (r : Recipe) : Prop where
  length_argNames : r.argNames.length = r.arity
  /-- Before the purpose is known nothing has a name. -/
  unnamed : r.purpose = none → (∀ name ∈ r.argNames, name = none) ∧ r.returnName = none
  /-- From the purpose on every argument has one. -/
  named : r.purpose ≠ none → ∀ name ∈ r.argNames, name ≠ none
  inputs : ∀ tag ∈ r.inputs, tag ∈ recognized
  outputs : ∀ tag ∈ r.outputs, tag ∈ recognized
  length_args : ∀ e ∈ r.examples, e.args.length = r.arity
  explanation : ∀ e ∈ r.examples, ∀ comment ∈ e.explanation, comment.head? = some '#'
  outline : ∀ e ∈ r.outline, e.text.head? = some '#' ∧ Text.Tight e.text
  lines_ne_nil : r.lines ≠ []

namespace Outline

/-! ### Names -/

namespace Purpose

/-- Handing out names leaves their number alone. -/
theorem length_assign (slots : List (Option Text)) (names : List Text) :
    (assign slots names).1.length = slots.length := by
  induction slots generalizing names with
  | nil => rfl
  | cons slot slots ih =>
    cases names with
    | nil => rfl
    | cons name names => simp [assign, ih]

theorem length_complete (position : Nat) (slots : List (Option Text)) (tags : List Text) :
    (complete position slots tags).length = slots.length := by
  induction slots generalizing position tags with
  | nil => rfl
  | cons slot slots ih =>
    cases tags with
    | nil => rfl
    | cons tag tags => simp [complete, ih]

/-- **No argument with a type is left without a name.** -/
theorem ne_none_of_mem_complete {slots : List (Option Text)} {tags : List Text}
    (h : slots.length ≤ tags.length) (position : Nat) :
    ∀ name ∈ complete position slots tags, name ≠ none := by
  induction slots generalizing position tags with
  | nil => exact List.forall_mem_nil _
  | cons slot slots ih =>
    cases tags with
    | nil => exact absurd h (by simp)
    | cons tag tags =>
      exact List.forall_mem_cons.mpr ⟨Option.some_ne_none _,
        ih (Nat.le_of_succ_le_succ h) (position + 1)⟩

end Purpose

/-! ### Types of the outside -/

/-- **A type of the outside is a recognized one**, in the spelling of the settings. -/
theorem InOuts.mem_of_sideOf (recognized : List Text) (channel : Channel) (column : Nat)
    (side : Text) : ∀ tag ∈ (InOuts.sideOf recognized channel column side).1, tag ∈ recognized := by
  intro tag htag
  rw [InOuts.sideOf] at htag
  split at htag
  · next known hfind =>
    obtain rfl : known = tag := Option.some_inj.mp htag
    exact List.mem_of_find?_eq_some hfind
  · split at htag <;> exact absurd htag (by simp)

theorem InOuts.mem_of_channelsOf (recognized : List Text) (column : Nat) (types : Text) :
    (∀ tag ∈ (InOuts.channelsOf recognized column types).1, tag ∈ recognized) ∧
      ∀ tag ∈ (InOuts.channelsOf recognized column types).2.1, tag ∈ recognized := by
  rw [InOuts.channelsOf]
  split
  · exact ⟨fun _ h => absurd h (by simp), fun _ h => absurd h (by simp)⟩
  · exact ⟨InOuts.mem_of_sideOf _ _ _ _, InOuts.mem_of_sideOf _ _ _ _⟩

/-! ### Examples -/

namespace ExampleLine

/-- There is a value for every type, whatever the tokens are. -/
theorem length_valuesAt (recognized : List Text) (start stop position : Nat) (tags : List Text)
    (slots : List (Option Piece)) :
    (valuesAt recognized start stop position tags slots).1.length = tags.length := by
  induction tags generalizing position slots with
  | nil => rfl
  | cons tag tags ih => simp [valuesAt, ih]

/-- **An example has one value for each argument**, and what is said about it is a comment. -/
theorem shape_of_read {recognized argTypes : List Text} {returnType : Text} {payload : Payload}
    {e : Example} (h : (read recognized argTypes returnType payload).1 = some e) :
    e.args.length = argTypes.length ∧ ∀ comment ∈ e.explanation, comment.head? = some '#' := by
  simp only [read] at h
  generalize hcomment : payload.text.dropWhile (· != '#') = comment at h
  split at h
  · exact absurd h (by simp)
  · obtain rfl := Option.some_inj.mp h
    refine ⟨length_valuesAt _ _ _ _ _ _, fun explanation hexplanation => ?_⟩
    cases comment with
    | nil => exact absurd hexplanation (by simp)
    | cons c rest =>
      -- The comment is what is left of the payload from its first hash on.
      have hhash : c = '#' := Text.eq_of_dropWhile_ne hcomment
      obtain rfl : Text.trimRight (c :: rest) = explanation := by simpa using hexplanation
      rw [hhash]
      exact Text.head?_trimRight_cons (by decide) rest

end ExampleLine

end Outline

/-! ### What every reader keeps -/

namespace Recipe

open Outline

variable {options : Options} {recognized : List Text} {r : Recipe}

theorem length_namesFrom (position : Nat) (names : List (Option Text)) (tags : List Text) :
    (namesFrom position names tags).length = min names.length tags.length := by
  induction names generalizing position tags with
  | nil => simp [namesFrom]
  | cons name names ih =>
    cases tags with
    | nil => simp [namesFrom]
    | cons tag tags => simp [namesFrom, ih, Nat.add_min_add_right]

/-- There is one parameter for each argument. -/
theorem WellFormed.length_parameters (h : r.WellFormed recognized) :
    r.parameters.length = r.arity := by
  rw [parameters, length_namesFrom, h.length_argNames, arity, Nat.min_self]

/-- A recipe of which only the contract line is known. -/
theorem wellFormed_ofContract (recognized : List Text) (text : Text) (c : Contract) :
    (Session.record text c.recipe).WellFormed recognized where
  length_argNames := List.length_replicate
  unnamed _ := ⟨fun _ hname => List.eq_of_mem_replicate hname, rfl⟩
  named h := absurd rfl h
  inputs _ htag := absurd htag (by simp [Session.record, Contract.recipe, Recipe.ofContract])
  outputs _ htag := absurd htag (by simp [Session.record, Contract.recipe, Recipe.ofContract])
  length_args := List.forall_mem_nil _
  explanation := List.forall_mem_nil _
  outline := List.forall_mem_nil _
  lines_ne_nil := List.cons_ne_nil _ _

namespace WellFormed

theorem record (h : r.WellFormed recognized) (text : Text) :
    (Session.record text r).WellFormed recognized :=
  { h with lines_ne_nil := by simp [Session.record] }

/-- **A purpose names every argument**, also if an earlier one has named more of them. -/
theorem purpose (h : r.WellFormed recognized) (payload : Text) :
    (Purpose.apply r payload).WellFormed recognized :=
  { h with
    length_argNames := by
      have hlength := h.length_argNames
      simpa [Purpose.apply, Purpose.length_complete, Purpose.length_assign, arity] using hlength
    unnamed := fun hnone => absurd hnone (Option.some_ne_none _)
    named := fun _ => by
      refine Purpose.ne_none_of_mem_complete ?_ 0
      rw [Purpose.length_assign, h.length_argNames]
      exact Nat.le_refl _ }

theorem inOuts (h : r.WellFormed recognized) (payload : Payload) :
    (InOuts.apply recognized r payload).1.WellFormed recognized :=
  { h with
    inputs := (InOuts.mem_of_channelsOf _ _ _).1
    outputs := (InOuts.mem_of_channelsOf _ _ _).2 }

theorem exampleLine (h : r.WellFormed recognized) (payload : Payload) :
    (ExampleLine.apply recognized r payload).1.WellFormed recognized := by
  rw [ExampleLine.apply]
  split
  · exact h
  · have hshape (e : Example)
        (he : e ∈ (ExampleLine.read recognized r.argTypes r.returnType payload).1.toList) :=
      ExampleLine.shape_of_read (Option.mem_toList.mp he)
    exact { h with
      length_args := List.forall_mem_append.mpr ⟨h.length_args, fun e he => (hshape e he).1⟩
      explanation := List.forall_mem_append.mpr ⟨h.explanation, fun e he => (hshape e he).2⟩ }

/-- A line of any section keeps a recipe well formed. -/
theorem readSection (h : r.WellFormed options.recognizedTypes) (heading : Heading) (text : Text) :
    (Session.readSection options heading text r).1.WellFormed options.recognizedTypes := by
  cases heading with
  | purpose => exact (h.purpose _).record _
  | inOuts => exact (h.inOuts _).record _
  | «example» => exact (h.exampleLine _).record _
  | none => exact h.record _
  | contract => exact h.record _

/-- A comment of a body outline keeps a recipe well formed. -/
theorem outlined (h : r.WellFormed recognized) {text : Text} (htext : Body.isEntry text = true)
    (indentWidth : Nat) :
    ({ r with outline := r.outline ++ [Body.entry indentWidth text] } : Recipe).WellFormed
      recognized :=
  { h with
    outline := by
      refine List.forall_mem_append.mpr ⟨h.outline, List.forall_mem_singleton.mpr ⟨?_, ?_⟩⟩
      · simpa [Body.isEntry, Body.entry] using htext
      · exact Text.tight_trim text }

end WellFormed

end Recipe

/-! ### Every run -/

namespace Outline.Session

variable {options : Options} {s t : Session} {lines : List Text} {line : Text}

/-- **A line leaves a well-formed recipe under construction**, if it leaves one. -/
theorem wellFormed_currentAfter {current : Option Recipe}
    (h : ∀ r ∈ current, r.WellFormed options.recognizedTypes) (state : State) (text : Text) :
    ∀ r ∈ currentAfter options state text current, r.WellFormed options.recognizedTypes :=
  forall_currentAfter (fun _ _ => Recipe.wellFormed_ofContract _ _ _)
    (fun _ _ hr => hr.readSection _ _) (fun hentry _ hr => hr.outlined hentry _) h

/-- **What a run has read is well formed**, under construction or finished. -/
theorem forall_wellFormed_of_feedAll (h : start.feedAll options lines = .ok s) :
    (∀ r ∈ s.current, r.WellFormed options.recognizedTypes) ∧
      ∀ r ∈ s.finished, r.WellFormed options.recognizedTypes := by
  refine feedAll_induction (P := fun _ s =>
    (∀ r ∈ s.current, r.WellFormed options.recognizedTypes) ∧
      ∀ r ∈ s.finished, r.WellFormed options.recognizedTypes)
    ⟨fun _ hr => absurd hr (by simp [start]), List.forall_mem_nil _⟩ ?_ h
  rintro lines line s t - ⟨hcurrent, hfinished⟩ hfeed
  rw [current_of_feed hfeed, finished_of_feed hfeed]
  refine ⟨wellFormed_currentAfter hcurrent _ _, List.forall_mem_append.mpr ⟨hfinished, ?_⟩⟩
  split
  · exact fun r hr => hcurrent r (Option.mem_toList.mp hr)
  · exact List.forall_mem_nil _

/-- **Every recipe of a run is well formed**, the one under construction and the finished
ones, and so is every recipe that is handed over at the end. It has one parameter for each
argument, and each of its examples gives as many values. -/
theorem wellFormed_of_feedAll (options : Options) (lines : List Text) (s : Session)
    (h : start.feedAll options lines = .ok s) (r : Recipe)
    (hr : s.current = some r ∨ r ∈ s.finished ∨ ∃ out, s.finish = .ok out ∧ r ∈ out.recipes) :
    r.WellFormed options.recognizedTypes ∧ r.parameters.length = r.arity ∧
      ∀ e ∈ r.examples, e.args.length = r.parameters.length := by
  obtain ⟨hcurrent, hfinished⟩ := forall_wellFormed_of_feedAll h
  have hwellFormed : r.WellFormed options.recognizedTypes := by
    rcases hr with hr | hr | ⟨out, hout, hr⟩
    · exact hcurrent r hr
    · exact hfinished r hr
    · obtain ⟨r', hr', hrecipes⟩ := exists_current_of_finish hout
      rw [hrecipes, List.mem_append, List.mem_singleton] at hr
      rcases hr with hr | rfl
      · exact hfinished r hr
      · exact hcurrent r hr'
  refine ⟨hwellFormed, hwellFormed.length_parameters, fun e he => ?_⟩
  rw [hwellFormed.length_parameters]
  exact hwellFormed.length_args e he

/-- A recipe whose second purpose names fewer arguments, and whose example lacks a value. -/
def wellFormedSample : List Text :=
  ["\"\"\"", "CONTRACT | f : int str -> bool", "PURPOSE | Is `a` in `b`?",
    "PURPOSE | Looks for `c`.", "IN/OUTS | INT/None # console", "EXAMPLE | 1 -> True # short",
    "\"\"\"", "  # look"]

theorem wellFormed_of_feedAll_sample : ∃ s r, start.feedAll .standard wellFormedSample = .ok s ∧
    s.current = some r ∧ r.parameters = ["c", "b"] ∧ r.inputs = some "int" ∧
    r.examples.length = 1 ∧ r.WellFormed Options.standard.recognizedTypes ∧
    ∀ e ∈ r.examples, e.args.length = r.parameters.length := by
  obtain ⟨s, r, hs, hr, hparameters, hinputs, hexamples⟩ : ∃ s r,
      start.feedAll .standard wellFormedSample = .ok s ∧ s.current = some r ∧
      r.parameters = ["c", "b"] ∧ r.inputs = some "int" ∧ r.examples.length = 1 :=
    ⟨_, _, rfl, rfl, rfl, rfl, rfl⟩
  obtain ⟨hwellFormed, -, hargs⟩ :=
    wellFormed_of_feedAll .standard wellFormedSample s hs r (Or.inl hr)
  exact ⟨s, r, hs, hr, hparameters, hinputs, hexamples, hwellFormed, hargs⟩

end Outline.Session

end DesignRecipe

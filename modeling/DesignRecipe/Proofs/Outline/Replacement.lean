import DesignRecipe.Proofs.Outline.Composition

/-!
# A bad example line costs only itself

Put another line of examples in the place of one. Both readings go the same way up to that
line, and after it they hold the same recipe, but for the line itself and the example that has
come from it. Nothing that is read later looks at the lines or at the examples that a recipe
has already: they are only added to. So the later lines add the same to both recipes
(`Recipe.behind`), until a contract line finishes them, and from then on the readings do not
differ at all.
-/

namespace DesignRecipe

/-- **A recipe behind what another one has read**: the lines and examples of that one stand
before its own. -/
def Recipe.behind (r : Recipe) (lines : List Text) (examples : List Example) : Recipe :=
  { r with lines := lines ++ r.lines, examples := examples ++ r.examples }

namespace Outline

/-- **The example that an example line adds** to a recipe, if it adds one. -/
def ExampleLine.added (recognized : List Text) (r : Recipe) (payload : Payload) : Option Example :=
  if isNotApplicable payload.text then none
  else (read recognized r.argTypes r.returnType payload).1

/-- An example line does nothing but add its example. -/
theorem ExampleLine.fst_apply (recognized : List Text) (r : Recipe) (payload : Payload) :
    (ExampleLine.apply recognized r payload).1 =
      { r with examples := r.examples ++ (added recognized r payload).toList } := by
  rw [apply, added]
  split
  · simp
  · rfl

namespace Session

variable {options : Options} {s s' t : Session} {lines : List Text} {line : Text}
  {front : List Recipe} {p p' : List Text × List Example}

/-! ### Lines and examples are only added to -/

/-- What a line adds to a recipe does not depend on the lines and examples of the recipe. -/
theorem readSection_behind (options : Options) (heading : Heading) (text : Text) (r : Recipe)
    (lines : List Text) (examples : List Example) :
    (readSection options heading text (r.behind lines examples)).1 =
      (readSection options heading text r).1.behind lines examples := by
  cases heading with
  | «example» =>
    simp [readSection, ExampleLine.fst_apply, ExampleLine.added, record, Recipe.behind]
  | _ => simp [readSection, Purpose.apply, InOuts.apply, record, Recipe.behind]

/-- Every line but a contract line makes one recipe of another, whatever lines and examples
there are before those of the recipe. -/
theorem exists_currentAfter_behind {state : State} (options : Options) (text : Text) (r : Recipe)
    (h : state ≠ ⟨.recipe, .contract⟩) :
    ∃ r' : Recipe, ∀ lines examples,
      currentAfter options state text (some (r.behind lines examples)) =
        some (r'.behind lines examples) := by
  simp only [currentAfter, if_neg h]
  cases state.region with
  | recipe => exact ⟨_, fun lines examples => congrArg some (readSection_behind _ _ _ r _ _)⟩
  | body =>
    by_cases hentry : Body.isEntry text = true
    · exact ⟨{ r with outline := r.outline ++ [Body.entry options.indentWidth text] },
        fun _ _ => if_pos hentry⟩
    · exact ⟨r, fun _ _ => if_neg hentry⟩
  | outside => exact ⟨r, fun _ _ => rfl⟩
  | block => exact ⟨r, fun _ _ => rfl⟩

/-! ### Two readings with different lines and examples in one recipe -/

/-- **Two readings that differ in one recipe**, the one after `front`, and only by the lines and
examples that it had at some time. It is under construction or finished. -/
inductive Alike (front : List Recipe) (p p' : List Text × List Example) (s t : Session) : Prop
  | building (r : Recipe) : t.state = s.state → s.finished = front → t.finished = front →
      s.current = some (r.behind p.1 p.2) → t.current = some (r.behind p'.1 p'.2) →
      Alike front p p' s t
  | finished (r : Recipe) (rest : List Recipe) : t.state = s.state → t.current = s.current →
      s.finished = front ++ r.behind p.1 p.2 :: rest →
      t.finished = front ++ r.behind p'.1 p'.2 :: rest → Alike front p p' s t

namespace Alike

theorem state_eq (h : Alike front p p' s t) : t.state = s.state := by
  cases h <;> assumption

theorem current_eq_none (h : Alike front p p' s t) (ht : t.current = none) :
    s.current = none := by
  cases h with
  | building r _ _ _ _ hcurrent =>
    rw [hcurrent] at ht
    exact absurd ht (by simp)
  | finished r rest _ hcurrent => exact hcurrent.symm.trans ht

/-- **A line that one reading accepts the other one accepts too**, and they go on alike. -/
theorem feed (h : Alike front p p' s t) (hfeed : s.feed options line = .ok s') :
    ∃ t', t.feed options line = .ok t' ∧ Alike front p p' s' t' := by
  have hnext : t.state.next line = s.state.next line := by rw [h.state_eq]
  obtain ⟨harrow, howned⟩ := not_stopped_of_feed hfeed
  obtain ⟨t', hfeed'⟩ : ∃ t', t.feed options line = .ok t' := by
    refine exists_feed_of_not_stopped ?_ ?_
    · rw [hnext]
      exact harrow
    · rw [hnext]
      exact fun hnone => howned (h.current_eq_none hnone)
  have hstate : t'.state = s'.state := by
    rw [(notes_of_feed hfeed').state, (notes_of_feed hfeed).state, hnext]
  have hfinished := finished_of_feed hfeed
  have hfinished' := finished_of_feed hfeed'
  have hcurrent := current_of_feed hfeed
  have hcurrent' := current_of_feed hfeed'
  rw [hnext] at hfinished' hcurrent'
  refine ⟨t', hfeed', ?_⟩
  cases h with
  | finished r rest _ hsame hs ht =>
    rw [hsame] at hfinished' hcurrent'
    refine .finished r (rest ++ if s.state.next line = ⟨.recipe, .contract⟩ then s.current.toList
      else []) hstate (hcurrent'.trans hcurrent.symm) ?_ ?_
    · rw [hfinished, hs, List.append_assoc, List.cons_append]
    · rw [hfinished', ht, List.append_assoc, List.cons_append]
  | building r _ hs ht hr hr' =>
    rw [hr] at hfinished hcurrent
    rw [hr'] at hfinished' hcurrent'
    by_cases hopens : s.state.next line = ⟨.recipe, .contract⟩
    · -- The recipe is finished, and the next one owes nothing to it.
      rw [if_pos hopens, hs] at hfinished
      rw [if_pos hopens, ht] at hfinished'
      refine .finished r [] hstate ?_ hfinished hfinished'
      rw [hcurrent', hcurrent, currentAfter, currentAfter, if_pos hopens, if_pos hopens]
    · rw [if_neg hopens, List.append_nil] at hfinished hfinished'
      obtain ⟨r', hr'⟩ := exists_currentAfter_behind options (Text.dropLineEnd line) r hopens
      exact .building r' hstate (hfinished.trans hs) (hfinished'.trans ht)
        (hcurrent.trans (hr' _ _)) (hcurrent'.trans (hr' _ _))

/-- **Two readings that are alike go on alike.** -/
theorem feedAll (h : Alike front p p' s t) (hfeed : s.feedAll options lines = .ok s') :
    ∃ t', t.feedAll options lines = .ok t' ∧ Alike front p p' s' t' := by
  induction lines generalizing s t with
  | nil =>
    obtain rfl := Except.ok.inj hfeed
    exact ⟨t, rfl, h⟩
  | cons line lines ih =>
    obtain ⟨u, hline, hlines⟩ := feedAll_cons_eq_ok.mp hfeed
    obtain ⟨v, hline', halike⟩ := h.feed hline
    obtain ⟨t', hlines', halike'⟩ := ih halike hlines
    exact ⟨t', feedAll_cons_eq_ok.mpr ⟨v, hline', hlines'⟩, halike'⟩

/-- At their ends the two readings give the same recipes but for one. -/
theorem finish {out : Output} (h : Alike front p p' s t) (hfinish : s.finish = .ok out) :
    ∃ (out' : Output) (r : Recipe) (rest : List Recipe), t.finish = .ok out' ∧
      out.recipes = front ++ r.behind p.1 p.2 :: rest ∧
        out'.recipes = front ++ r.behind p'.1 p'.2 :: rest := by
  obtain ⟨⟨c, hcurrent⟩, hrecipes, -⟩ := eq_of_finish hfinish
  cases h with
  | building r _ hs ht hr hr' =>
    obtain ⟨out', hfinish', hrecipes', -⟩ := exists_finish hr'
    refine ⟨out', r, [], hfinish', ?_, ?_⟩
    · rw [hrecipes, recipes, hs, hr, Option.toList_some]
    · rw [hrecipes', recipes, ht, hr', Option.toList_some]
  | finished r rest _ hsame hs ht =>
    obtain ⟨out', hfinish', hrecipes', -⟩ := exists_finish (hsame.trans hcurrent)
    refine ⟨out', r, rest ++ s.current.toList, hfinish', ?_, ?_⟩
    · rw [hrecipes, recipes, hs, List.append_assoc, List.cons_append]
    · rw [hrecipes', recipes, ht, hsame, List.append_assoc, List.cons_append]

end Alike

/-! ### The line that is replaced -/

/-- What the recipe under construction has of lines and examples after an example line. -/
def readSoFar (options : Options) (r : Recipe) (line : Text) : List Text × List Example :=
  (r.lines ++ [Text.dropLineEnd line],
    r.examples ++ (ExampleLine.added options.recognizedTypes r
      (Payload.ofLine (Text.dropLineEnd line))).toList)

/-- After an accepted example line the recipe is as before, behind what it has read so far. -/
theorem current_of_feed_example {r : Recipe} (hr : s.current = some r)
    (hexample : s.state.next line = ⟨.recipe, .example⟩) (hfeed : s.feed options line = .ok t) :
    t.current = some ({ r with lines := [], examples := [] }.behind
      (readSoFar options r line).1 (readSoFar options r line).2) := by
  rw [current_of_feed hfeed, hexample, hr]
  simp [currentAfter, readSection, ExampleLine.fst_apply, record, Recipe.behind, readSoFar]

/-- **Two example lines in the same place** are both accepted if one is, and leave readings that
are alike. -/
theorem exists_alike_of_feed {r : Recipe} {line' : Text} (hr : s.current = some r)
    (hexample : s.state.next line = ⟨.recipe, .example⟩)
    (hexample' : s.state.next line' = ⟨.recipe, .example⟩) (hfeed : s.feed options line = .ok s') :
    ∃ t', s.feed options line' = .ok t' ∧
      Alike s.finished (readSoFar options r line) (readSoFar options r line') s' t' := by
  obtain ⟨t', hfeed'⟩ : ∃ t', s.feed options line' = .ok t' := by
    refine exists_feed_of_not_stopped ?_ ?_
    · rw [hexample']
      exact fun hcontract => absurd hcontract (by decide)
    · rw [hr]
      exact fun hnone => absurd hnone (by simp)
  have hfinished {l : Text} {u : Session} (hnext : s.state.next l = ⟨.recipe, .example⟩)
      (hu : s.feed options l = .ok u) : u.finished = s.finished := by
    rw [finished_of_feed hu, hnext]
    simp
  refine ⟨t', hfeed', .building { r with lines := [], examples := [] } ?_
    (hfinished hexample hfeed) (hfinished hexample' hfeed')
    (current_of_feed_example hr hexample hfeed) (current_of_feed_example hr hexample' hfeed')⟩
  rw [(notes_of_feed hfeed').state, (notes_of_feed hfeed).state, hexample, hexample']

end Session

open Session

/-- A line of an outline in its place, and the state before it. -/
theorem next_of_getElem?_place {lines : List Text} {i : Nat} {line : Text} {state : State}
    (h : (place lines)[i]? = some ⟨line, state⟩) :
    lines[i]? = some line ∧ (State.after (lines.take i)).next line = state := by
  rw [getElem?_place] at h
  obtain ⟨line', hline, hplaced⟩ := Option.map_eq_some_iff.mp h
  obtain ⟨rfl, rfl⟩ := Placed.mk.inj hplaced
  refine ⟨hline, ?_⟩
  rw [take_succ_eq_concat hline, State.after_concat]

/-- **A bad example line costs at most its own example.** If an outline is read to its end, and
one of its example lines is replaced by another one, whatever is wrong with it, then the outline
is still read to its end. It gives the same recipes, but for the one of the contract line that
comes last before the example line: there the lines differ in that one line only, and the examples
only in the one that it adds, if it adds one. -/
theorem readLines_set_example {options : Options} {lines : List Text} {out : Output} {i : Nat}
    {line line' : Text} (h : readLines options lines = .ok out)
    (hline : (place lines)[i]? = some ⟨line, ⟨.recipe, .example⟩⟩)
    (hline' : (place (lines.set i line'))[i]? = some ⟨line', ⟨.recipe, .example⟩⟩) :
    ∃ (out' : Output) (s : Session) (r₀ r : Recipe) (rest : List Recipe),
      readLines options (lines.set i line') = .ok out' ∧
      start.feedAll options (lines.take i) = .ok s ∧ s.current = some r₀ ∧
      (place (lines.take i)).countP Placed.opens = s.finished.length + 1 ∧
      out.recipes = s.finished ++ { r with
        lines := r₀.lines ++ [Text.dropLineEnd line] ++ r.lines
        examples := r₀.examples ++ (ExampleLine.added options.recognizedTypes r₀
          (Payload.ofLine (Text.dropLineEnd line))).toList ++ r.examples } :: rest ∧
      out'.recipes = s.finished ++ { r with
        lines := r₀.lines ++ [Text.dropLineEnd line'] ++ r.lines
        examples := r₀.examples ++ (ExampleLine.added options.recognizedTypes r₀
          (Payload.ofLine (Text.dropLineEnd line'))).toList ++ r.examples } :: rest := by
  obtain ⟨hline, hexample⟩ := next_of_getElem?_place hline
  obtain ⟨-, hexample'⟩ := next_of_getElem?_place hline'
  have hi := (List.getElem?_eq_some_iff.mp hline).1
  rw [List.take_set_of_le (Nat.le_refl i)] at hexample'
  -- The reading before the line, after the line, and at the end.
  obtain ⟨u, hu, hfinish⟩ := readLines_eq_ok.mp h
  obtain ⟨s, hs, hrest⟩ := exists_feedAll_take hu i
  rw [List.drop_eq_getElem_cons hi, (List.getElem?_eq_some_iff.mp hline).2] at hrest
  obtain ⟨t, hfeed, hrest⟩ := feedAll_cons_eq_ok.mp hrest
  rw [← state_of_feedAll hs] at hexample hexample'
  obtain ⟨r₀, hr₀⟩ : ∃ r₀, s.current = some r₀ := by
    refine Option.ne_none_iff_exists'.mp fun hnone => (not_stopped_of_feed hfeed).2 hnone ?_
    rw [hexample]
    exact Or.inl ⟨rfl, Or.inr (Or.inr rfl)⟩
  obtain ⟨t', hfeed', halike⟩ := exists_alike_of_feed hr₀ hexample hexample' hfeed
  obtain ⟨u', hrest', halike'⟩ := halike.feedAll hrest
  obtain ⟨out', r, rest, hfinish', hrecipes, hrecipes'⟩ := halike'.finish hfinish
  have hu' : start.feedAll options (lines.set i line') = .ok u' := by
    rw [List.set_eq_take_append_cons_drop, if_pos hi]
    exact feedAll_append_eq_ok.mpr ⟨s, hs, feedAll_cons_eq_ok.mpr ⟨t', hfeed', hrest'⟩⟩
  exact ⟨out', s, r₀, r, rest, readLines_eq_ok.mpr ⟨u', hu', hfinish'⟩, hs, hr₀,
    countP_opens_of_current hs hr₀, hrecipes, hrecipes'⟩

/-- Two functions, the first of them with two examples. -/
def twoExamples : List Text :=
  ["\"\"\"", "CONTRACT | f : int -> int", "EXAMPLE | 1 -> 2", "EXAMPLE | 2 -> 4", "\"\"\"",
    "\"\"\"", "CONTRACT | g : None -> int", "EXAMPLE | n/a", "\"\"\""]

theorem readLines_set_example_sample : ∃ out out', readLines .standard twoExamples = .ok out ∧
    (place twoExamples)[2]? = some ⟨"EXAMPLE | 1 -> 2", ⟨.recipe, .example⟩⟩ ∧
    readLines .standard (twoExamples.set 2 "EXAMPLE ([ '") = .ok out' ∧
    out.recipes.map (fun r => (r.name, r.examples.length)) = [(['f'], 2), (['g'], 0)] ∧
    out'.recipes.map (fun r => (r.name, r.examples.length)) = [(['f'], 1), (['g'], 0)] ∧
    ∃ front r r' rest, out.recipes = front ++ r :: rest ∧ out'.recipes = front ++ r' :: rest ∧
      { r' with lines := r.lines, examples := r.examples } = r := by
  obtain ⟨out, hout, hshape⟩ : ∃ out, readLines .standard twoExamples = .ok out ∧
      out.recipes.map (fun r => (r.name, r.examples.length)) = [(['f'], 2), (['g'], 0)] :=
    ⟨_, rfl, by decide⟩
  obtain ⟨out', hout', hshape'⟩ : ∃ out',
      readLines .standard (twoExamples.set 2 "EXAMPLE ([ '") = .ok out' ∧
      out'.recipes.map (fun r => (r.name, r.examples.length)) = [(['f'], 1), (['g'], 0)] :=
    ⟨_, rfl, by decide⟩
  have hline : (place twoExamples)[2]? = some ⟨"EXAMPLE | 1 -> 2", ⟨.recipe, .example⟩⟩ := rfl
  have hline' : (place (twoExamples.set 2 "EXAMPLE ([ '"))[2]? =
    some ⟨"EXAMPLE ([ '", ⟨.recipe, .example⟩⟩ := rfl
  obtain ⟨_, s, r₀, r, rest, h, -, -, -, hrecipes, hrecipes'⟩ :=
    readLines_set_example hout hline hline'
  obtain rfl := Except.ok.inj (hout'.symm.trans h)
  exact ⟨out, out', hout, hline, hout', hshape, hshape', s.finished, _, _, rest, hrecipes,
    hrecipes', rfl⟩

end Outline

end DesignRecipe

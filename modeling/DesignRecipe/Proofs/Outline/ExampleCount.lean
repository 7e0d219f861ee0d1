import DesignRecipe.Proofs.Outline.Locality
import DesignRecipe.Proofs.Outline.Replacement

/-!
# The examples of a function are its arrow lines

Which lines give an example can be told from the lines alone (`GivesExample`): there is an arrow
outside of double quotes before the comment, and the payload does not say that there is no
example. The search for the arrow toggles a flag at each double quote, so an arrow is outside of
quotes if the number of quotes before it is even; blanks that are trimmed away do not matter,
since no arrow has one in it.

An example line that is reported for its values gives an example all the same. So a function has
one example for each such line of its segment, in their order, and no other line adds one or
takes one away.
-/

namespace DesignRecipe.Outline

/-! ### Arrows outside of quotes -/

/-- **There is an arrow outside of double quotes**: an even number of them comes before it. -/
def HasArrow (text : Text) : Prop :=
  ∃ before after, text = before ++ arrow ++ after ∧ Even (before.count '"')

namespace ExampleLine

/-- Behind the first character of a text the flag is the other one if that is a quote. -/
theorem even_count_cons_iff (quoted : Bool) (c : Char) (before : Text) :
    (Even ((c :: before).count '"') ↔ quoted = false) ↔
      (Even (before.count '"') ↔ (if c = '"' then !quoted else quoted) = false) := by
  by_cases hc : c = '"'
  · cases quoted <;> simp [hc, Nat.even_add_one]
  · cases quoted <;> simp [hc]

/-- The search for the arrow finds one that is outside of quotes, if there is one. Inside of
quotes it looks for one with an odd number of quotes before it. -/
theorem isSome_splitArrow_iff (quoted : Bool) (text : Text) :
    (splitArrow quoted text).isSome = true ↔
      ∃ before after, text = before ++ arrow ++ after ∧
        (Even (before.count '"') ↔ quoted = false) := by
  induction text generalizing quoted with
  | nil => simp [splitArrow, arrow]
  | cons c rest ih =>
    have hrest : (splitArrow (if c = '"' then !quoted else quoted) rest).isSome = true ↔
        ∃ before after, rest = before ++ arrow ++ after ∧
          (Even ((c :: before).count '"') ↔ quoted = false) := by
      rw [ih]
      simp only [even_count_cons_iff]
    rw [splitArrow]
    split
    · next hhere =>
      rw [Bool.and_eq_true, Bool.not_eq_true', List.isPrefixOf_iff_prefix] at hhere
      obtain ⟨hquoted, after, hafter⟩ := hhere
      exact iff_of_true rfl ⟨[], after, hafter.symm, by simp [hquoted]⟩
    · next hhere =>
      rw [Option.isSome_map, hrest]
      constructor
      · rintro ⟨before, after, rfl, heven⟩
        exact ⟨c :: before, after, rfl, heven⟩
      · rintro ⟨before, after, htext, heven⟩
        cases before with
        | nil =>
          -- An arrow right here would have been found.
          refine absurd ?_ hhere
          rw [Bool.and_eq_true, Bool.not_eq_true', List.isPrefixOf_iff_prefix]
          exact ⟨heven.mp (by simp), after, htext.symm⟩
        | cons c' before =>
          obtain ⟨rfl, hbehind⟩ := List.cons_eq_cons.mp htext
          exact ⟨before, after, hbehind, heven⟩

theorem isSome_splitArrow_iff_hasArrow (text : Text) :
    (splitArrow false text).isSome = true ↔ HasArrow text := by
  simp [isSome_splitArrow_iff, HasArrow]

end ExampleLine

instance (text : Text) : Decidable (HasArrow text) :=
  decidable_of_iff _ (ExampleLine.isSome_splitArrow_iff_hasArrow text)

/-- Blanks at the end are no part of an arrow. -/
theorem hasArrow_trimRight (text : Text) : HasArrow (Text.trimRight text) ↔ HasArrow text := by
  induction text using List.reverseRecOn with
  | nil => rfl
  | append_singleton text c ih =>
    rw [Text.trimRight, Text.dropEndWhile_concat]
    split
    · next hblank =>
      rw [← Text.trimRight, ih]
      constructor
      · rintro ⟨before, after, rfl, heven⟩
        exact ⟨before, after ++ [c], by simp, heven⟩
      · rintro ⟨before, after, htext, heven⟩
        rcases List.eq_nil_or_concat' after with rfl | ⟨after, d, rfl⟩
        · -- The arrow would end with a blank.
          have hconcat : text ++ [c] = before ++ ['-'] ++ ['>'] := by simpa [arrow] using htext
          obtain ⟨-, hlast⟩ := List.append_inj' hconcat rfl
          rw [List.singleton_inj.mp hlast] at hblank
          exact absurd hblank (by decide)
        · rw [← List.append_assoc] at htext
          obtain ⟨hinit, -⟩ := List.append_inj' htext rfl
          exact ⟨before, after, hinit, heven⟩
    · exact Iff.rfl

/-! ### Lines that give an example -/

/-- **A payload gives an example**: it is not `n/a`, and it has an arrow outside of quotes before
its comment. -/
def GivesExample (payload : Text) : Prop :=
  Text.equalsIgnoringCase payload ['n', '/', 'a'] = false ∧
    HasArrow (payload.takeWhile (· != '#'))

instance (payload : Text) : Decidable (GivesExample payload) :=
  inferInstanceAs (Decidable (_ ∧ _))

/-- **The line gives an example**: it is a line of examples, and its payload gives one. -/
def Placed.givesExample (p : Placed) : Bool :=
  p.state = ⟨.recipe, .example⟩ ∧ GivesExample (Payload.ofLine (Text.dropLineEnd p.line)).text

/-- The example that the line adds to a recipe, if it adds one. -/
def Placed.example? (options : Options) (r : Recipe) (p : Placed) : Option Example :=
  ExampleLine.added options.recognizedTypes r (Payload.ofLine (Text.dropLineEnd p.line))

/-- What is looked through for the arrow is what stands before the comment, but for blanks at its
end. -/
theorem ExampleLine.isSome_read_iff (recognized argTypes : List Text) (returnType : Text)
    (payload : Payload) : (read recognized argTypes returnType payload).1.isSome = true ↔
      HasArrow (payload.text.takeWhile (· != '#')) := by
  have hbody : HasArrow (if (payload.text.dropWhile (· != '#')).isEmpty then payload.text
      else Text.trimRight (payload.text.takeWhile (· != '#'))) ↔
        HasArrow (payload.text.takeWhile (· != '#')) := by
    split
    · next hnone =>
      have hall := List.takeWhile_append_dropWhile (p := (· != '#')) (l := payload.text)
      rw [List.isEmpty_iff.mp hnone, List.append_nil] at hall
      rw [hall]
    · exact hasArrow_trimRight _
  rw [← hbody, ← isSome_splitArrow_iff_hasArrow]
  simp only [read]
  split
  · next hnone => simp only [hnone, Option.isSome_none]
  · next hsome => simp only [hsome, Option.isSome_some]

/-- **A line adds an example exactly if it gives one**, whatever is wrong with its values. -/
theorem ExampleLine.isSome_added_iff (recognized : List Text) (r : Recipe) (payload : Payload) :
    (added recognized r payload).isSome = true ↔ GivesExample payload.text := by
  rw [added, GivesExample, isNotApplicable]
  split
  · next hnone => simp [hnone]
  · next hnone => simp [hnone, isSome_read_iff]

/-! ### The examples of a segment -/

/-- **A recipe has the examples of its segment**: one for each line that gives one, in their
order, each of them read for the types of the contract. -/
structure Illustrates (options : Options) (segment : List Placed) (r : Recipe) : Prop where
  count : r.examples.length = segment.countP Placed.givesExample
  order : r.examples.map some =
    (segment.filter Placed.givesExample).map (Placed.example? options r)

variable {options : Options} {lines : List Text} {p : Placed} {r r' : Recipe}

theorem Illustrates.of_order {segment : List Placed}
    (h : r.examples.map some =
      (segment.filter Placed.givesExample).map (Placed.example? options r)) :
    Illustrates options segment r := by
  refine ⟨?_, h⟩
  have hlength := congrArg List.length h
  rwa [List.length_map, List.length_map, ← List.countP_eq_length_filter] at hlength

/-- A contract line gives no example. -/
theorem Placed.givesExample_of_opens (hp : p.opens = true) : p.givesExample = false := by
  have hstate : p.state = ⟨.recipe, .contract⟩ := of_decide_eq_true hp
  simp [givesExample, hstate]

/-- A recipe starts without examples. -/
theorem Placed.examples_of_opens (hp : p.opens = true)
    (hr : p.read options none = some r) : r.examples = [] := by
  obtain ⟨c, rfl⟩ := Placed.exists_contract hp hr
  rfl

/-- What a line of a section adds to the examples. -/
theorem Session.examples_readSection (options : Options) (heading : Heading) (text : Text)
    (r : Recipe) : (readSection options heading text r).1.examples =
      r.examples ++ if heading = .example then
        (ExampleLine.added options.recognizedTypes r (Payload.ofLine text)).toList else [] := by
  cases heading with
  | «example» => simp [readSection, record, ExampleLine.fst_apply]
  | _ => simp [readSection, record, Purpose.apply, InOuts.apply]

/-- A line that gives an example adds one to any recipe. -/
theorem Placed.exists_example? (options : Options) (r : Recipe) (hp : p.givesExample = true) :
    ∃ e, p.example? options r = some e := by
  rw [givesExample, decide_eq_true_iff] at hp
  exact Option.isSome_iff_exists.mp ((ExampleLine.isSome_added_iff _ r _).mpr hp.2)

/-- A line of examples that gives none adds none. -/
theorem Placed.added_of_givesExample (options : Options) (r : Recipe) (p : Placed) :
    (if p.givesExample then (p.example? options r).toList else []) =
      if p.state = ⟨.recipe, .example⟩ then (p.example? options r).toList else [] := by
  have hadds := ExampleLine.isSome_added_iff options.recognizedTypes r
    (Payload.ofLine (Text.dropLineEnd p.line))
  rw [← example?] at hadds
  by_cases hstate : p.state = ⟨.recipe, .example⟩
  · cases hexample : p.example? options r with
    | none => simp
    | some e =>
      rw [hexample] at hadds
      simp [givesExample, hstate, hadds.mp rfl]
  · simp [givesExample, hstate]

/-- **Every other line adds its example**, if it gives one, and leaves the types of the contract
alone. -/
theorem Placed.examples_of_read (hp : p.opens = false) (hr : p.read options (some r) = some r') :
    r'.argTypes = r.argTypes ∧ r'.returnType = r.returnType ∧
      r'.examples = r.examples ++
        if p.givesExample then (p.example? options r).toList else [] := by
  rw [added_of_givesExample]
  obtain ⟨line, region, heading⟩ := p
  rcases Placed.cases_of_read hp hr with ⟨hregion, rfl⟩ | ⟨hregion, -, rfl⟩ | ⟨hregion, -, rfl⟩
  · obtain rfl : region = .recipe := hregion
    have hcontinues := Session.continues_readSection options heading line r
    refine ⟨hcontinues.argTypes, hcontinues.returnType, ?_⟩
    rw [Session.examples_readSection]
    simp [example?]
  · obtain rfl : region = .body := hregion
    exact ⟨rfl, rfl, by simp⟩
  · have hstate : ¬(⟨region, heading⟩ : State) = ⟨.recipe, .example⟩ := fun h =>
      hregion (congrArg State.region h)
    exact ⟨rfl, rfl, by simp [hstate]⟩

/-- **The recipe of a segment has the examples of the segment.** -/
theorem illustrates_recipeOf {segment : List Placed} (h : segment ∈ segments (place lines))
    (hr : recipeOf options segment = some r) : Illustrates options segment r := by
  refine recipeOf_induction (fun p r hp hr => ?_) (fun segment p r r' hp ih hr => ?_) h hr
  · have hexamples := Placed.examples_of_opens hp hr
    exact .of_order (by simp [hexamples, Placed.givesExample_of_opens hp])
  · obtain ⟨hargs, hreturn, hexamples⟩ := Placed.examples_of_read hp hr
    have hsame : Placed.example? options r' = Placed.example? options r := by
      funext q
      rw [Placed.example?, Placed.example?, ExampleLine.added, ExampleLine.added, hargs, hreturn]
    refine .of_order ?_
    rw [hexamples, List.filter_append, List.map_append, List.map_append, hsame, ih.order,
      List.filter_singleton]
    congr 1
    by_cases hgives : p.givesExample = true
    · obtain ⟨e, he⟩ := Placed.exists_example? options r hgives
      simp [hgives, he]
    · simp [hgives]

/-- **Every recipe of an outline has the examples of its segment.** -/
theorem forall₂_illustrates {out : Output} (h : readLines options lines = .ok out) :
    List.Forall₂ (Illustrates options) (segments (place lines)) out.recipes :=
  forall₂_recipes h fun _ hsegment _ => illustrates_recipeOf hsegment

end DesignRecipe.Outline

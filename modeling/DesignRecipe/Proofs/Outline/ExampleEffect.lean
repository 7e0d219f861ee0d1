import DesignRecipe.Proofs.Outline.ExampleCount
import DesignRecipe.Proofs.Text.Lines
import DesignRecipe.Proofs.Token.Slots
import DesignRecipe.Python.Literal

/-!
# The whole effect of an example line

What an example line does to a reading can be said from the payload of the line and the contract
alone (`Contributes`). The payload is cut at its first `#`. If there is no arrow outside of
double quotes before the cut, that is the one problem, and there is no example. Otherwise the
first such arrow parts the arguments from the result, and each place of the example is `Filled`
from the slot of its own: with a value, or with nothing and one problem for the place.

The search for the arrow looks at the text before the cut without the blanks at its end. They
make no difference: blanks behind an arrow are trimmed away with the result
(`PartedAtArrow.append`).

Everything else stays as it was (`Session.effect_of_example`): the line is noted in the recipe,
and the other fields of the recipe and the finished recipes are not written.
-/

namespace DesignRecipe.Outline

/-! ### The first arrow -/

/-- **A text is parted at its first arrow outside of double quotes.** -/
structure PartedAtArrow (text before after : Text) : Prop where
  eq : text = before ++ arrow ++ after
  outside : Even (before.count '"')
  first : ∀ before' after', text = before' ++ arrow ++ after' → Even (before'.count '"') →
    before.length ≤ before'.length

/-- What stands behind the text does not move its first arrow. -/
theorem PartedAtArrow.append {text before after : Text} (h : PartedAtArrow text before after)
    (more : Text) : PartedAtArrow (text ++ more) before (after ++ more) where
  eq := by rw [h.eq, List.append_assoc]
  outside := h.outside
  first before' after' htext heven := by
    by_contra hearlier
    -- An arrow that ends before the first one does lies within the text.
    have hlength : (before' ++ arrow).length ≤ text.length := by
      rw [h.eq]
      simp only [List.length_append]
      omega
    obtain ⟨rest, hrest⟩ : before' ++ arrow <+: text :=
      List.prefix_of_prefix_length_le ⟨after', htext.symm⟩ (List.prefix_append text more) hlength
    exact hearlier (h.first before' rest hrest.symm heven)

namespace ExampleLine

/-- The search for the arrow stops at the first one that is outside of quotes. Inside of quotes
it looks for one with an odd number of quotes before it. -/
theorem first_of_splitArrow {quoted : Bool} {text before after : Text}
    (h : splitArrow quoted text = some (before, after)) :
    text = before ++ arrow ++ after ∧ (Even (before.count '"') ↔ quoted = false) ∧
      ∀ before' after', text = before' ++ arrow ++ after' →
        (Even (before'.count '"') ↔ quoted = false) → before.length ≤ before'.length := by
  induction text generalizing quoted before with
  | nil => exact absurd h (by simp [splitArrow])
  | cons c rest ih =>
    rw [splitArrow] at h
    split at h
    · next hhere =>
      rw [Bool.and_eq_true, Bool.not_eq_true', List.isPrefixOf_iff_prefix] at hhere
      obtain ⟨hquoted, more, hmore⟩ := hhere
      obtain ⟨rfl, rfl⟩ := Prod.mk.inj (Option.some_inj.mp h)
      refine ⟨?_, by simp [hquoted], fun _ _ _ _ => Nat.zero_le _⟩
      obtain ⟨rfl, rfl⟩ := List.cons_eq_cons.mp hmore
      rfl
    · next hhere =>
      obtain ⟨⟨front, _⟩, hrest, hpair⟩ := Option.map_eq_some_iff.mp h
      obtain ⟨rfl, rfl⟩ := Prod.mk.inj hpair
      obtain ⟨rfl, heven, hfirst⟩ := ih hrest
      refine ⟨rfl, (even_count_cons_iff quoted c front).mpr heven, ?_⟩
      rintro (_ | ⟨d, before'⟩) after' htext heven'
      · -- An arrow right here would have been found.
        refine absurd ?_ hhere
        rw [Bool.and_eq_true, Bool.not_eq_true', List.isPrefixOf_iff_prefix]
        exact ⟨heven'.mp (by simp), after', htext.symm⟩
      · obtain ⟨rfl, hbehind⟩ := List.cons_eq_cons.mp htext
        exact Nat.succ_le_succ
          (hfirst before' after' hbehind ((even_count_cons_iff quoted c before').mp heven'))

theorem partedAtArrow_of_splitArrow {text before after : Text}
    (h : splitArrow false text = some (before, after)) : PartedAtArrow text before after := by
  obtain ⟨htext, heven, hfirst⟩ := first_of_splitArrow h
  exact ⟨htext, heven.mpr rfl, fun before' after' htext' heven' =>
    hfirst before' after' htext' (iff_of_true heven' rfl)⟩

end ExampleLine

/-! ### The places of an example -/

/-- **What a place of an example is filled with** from its slot, and the problems that are
reported for it. -/
inductive Filled (recognized : List Text) (place : Slot) (tag : Text) :
    Option Piece → Value → List Problem → Prop
  /-- The token is a value of the type. -/
  | accepted {token : Piece} {value : Value} :
      Coercion.coerce recognized token.text tag = .ok value →
      Filled recognized place tag (some token) value []
  /-- The token is no value of the type. -/
  | rejected {token : Piece} {rejection : Rejection} :
      Coercion.coerce recognized token.text tag = .error rejection →
      Filled recognized place tag (some token) .none [.rejectedValue rejection]
  /-- There is no token. -/
  | missing : Filled recognized place tag none .none [.missingValue place]

/-- **The arguments of an example are filled one by one**, each from the slot with its number.
The problems are listed by the arguments that they are about. -/
structure FilledEach (recognized tags : List Text) (slots : List (Option Piece))
    (values : List Value) (found : List (List Problem)) : Prop where
  length_slots : slots.length = tags.length
  length_values : values.length = tags.length
  length_found : found.length = tags.length
  filled : ∀ {i : Nat} {tag : Text} {slot : Option Piece} {value : Value}
    {problems : List Problem}, tags[i]? = some tag → slots[i]? = some slot →
    values[i]? = some value → found[i]? = some problems →
    Filled recognized (.argument i) tag slot value problems

/-- The repairs to the values of a text, as problems of its line. -/
def repairs (tokens : Tokens) : List Problem :=
  tokens.issues.map fun issue => .repaired issue.repair

namespace ExampleLine

theorem problem_repairsAt (start : Nat) (tokens : Tokens) :
    (repairsAt start tokens).map Finding.problem = repairs tokens := by
  rw [repairsAt, repairs, List.map_map]
  rfl

theorem filled_valueAt (recognized : List Text) (place : Slot) (tag : Text) (start stop : Nat)
    (slot : Option Piece) :
    Filled recognized place tag slot (valueAt recognized place tag start stop slot).1
      ((valueAt recognized place tag start stop slot).2.map Finding.problem) := by
  cases slot with
  | none => exact .missing
  | some token =>
    rw [valueAt]
    split
    · next hvalue => exact .accepted hvalue
    · next hrejection => exact .rejected hrejection

/-- **Consecutive places** are filled each from its slot, from any number on. -/
theorem exists_filled_valuesAt (recognized : List Text) (start stop position : Nat)
    {tags : List Text} {slots : List (Option Piece)} (hslots : slots.length = tags.length) :
    ∃ found : List (List Problem),
      (valuesAt recognized start stop position tags slots).2.map Finding.problem =
        found.flatten ∧
      (valuesAt recognized start stop position tags slots).1.length = tags.length ∧
      found.length = tags.length ∧
      ∀ {i : Nat} {tag : Text} {slot : Option Piece} {value : Value} {problems : List Problem},
        tags[i]? = some tag → slots[i]? = some slot →
        (valuesAt recognized start stop position tags slots).1[i]? = some value →
        found[i]? = some problems →
        Filled recognized (.argument (position + i)) tag slot value problems := by
  -- The number of the first place varies: the places behind it start at the next number.
  induction tags generalizing position slots with
  | nil => exact ⟨[], rfl, rfl, rfl, fun h => absurd h (by simp)⟩
  | cons tag tags ih =>
    obtain ⟨slot, slots, rfl⟩ := List.exists_cons_of_length_eq_add_one hslots
    obtain ⟨found, hproblems, hvalues, hfound, hfilled⟩ :=
      ih (position + 1) (Nat.succ.inj hslots)
    have hhere := filled_valueAt recognized (.argument position) tag start stop slot
    simp only [valuesAt, List.head?_cons, Option.getD_some, List.tail_cons]
    refine ⟨(valueAt recognized (.argument position) tag start stop slot).2.map Finding.problem ::
      found, ?_, congrArg Nat.succ hvalues, congrArg Nat.succ hfound, ?_⟩
    · rw [List.map_append, hproblems, List.flatten_cons]
    · rintro (_ | i) tag' slot' value' problems' htag hslot hvalue hproblems'
      · obtain rfl := Option.some_inj.mp htag
        obtain rfl := Option.some_inj.mp hslot
        obtain rfl := Option.some_inj.mp hvalue
        obtain rfl := Option.some_inj.mp hproblems'
        exact hhere
      · have hnumber : position + 1 + i = position + (i + 1) := by omega
        rw [← hnumber]
        exact hfilled htag hslot hvalue hproblems'

theorem exists_filledEach_argumentsOf (recognized argTypes : List Text) (column : Nat)
    (before : Text) :
    ∃ found, FilledEach recognized argTypes
        (tokenize (Text.trim before) argTypes.length).slots
        (argumentsOf recognized argTypes column before).1 found ∧
      (argumentsOf recognized argTypes column before).2.map Finding.problem =
        found.flatten ++ repairs (tokenize (Text.trim before) argTypes.length) := by
  have hslots := length_slots_tokenize (Text.trim before) argTypes.length
  obtain ⟨found, hproblems, hvalues, hfound, hfilled⟩ := exists_filled_valuesAt recognized
    (column + Text.leadingBlanks before) (column + (Text.trimRight before).length) 0 hslots
  refine ⟨found, ⟨hslots, hvalues, hfound, fun htag hslot hvalue hproblems' => ?_⟩, ?_⟩
  · simpa using hfilled htag hslot hvalue hproblems'
  · rw [argumentsOf, List.map_append, hproblems, problem_repairsAt]

theorem exists_filled_resultOf (recognized : List Text) (returnType : Text) (column : Nat)
    (after : Text) :
    ∃ slot problems, (tokenize (Text.trim after) 1).slots = [slot] ∧
      Filled recognized .returnValue returnType slot
        (resultOf recognized returnType column after).1 problems ∧
      (resultOf recognized returnType column after).2.map Finding.problem =
        problems ++ repairs (tokenize (Text.trim after) 1) := by
  obtain ⟨slot, hslot⟩ := List.length_eq_one_iff.mp (length_slots_tokenize (Text.trim after) 1)
  have hfilled := filled_valueAt recognized .returnValue returnType
    (column + Text.leadingBlanks after) (column + after.length) slot
  simp only [resultOf, hslot, List.head?_cons, Option.getD_some, List.map_append,
    problem_repairsAt]
  exact ⟨slot, _, rfl, hfilled, rfl⟩

end ExampleLine

/-! ### The payload -/

/-- **What the payload of an example line adds to a recipe**, and the problems that are reported
for it, in their order. -/
inductive Contributes (recognized : List Text) (r : Recipe) (payload : Text) :
    Option Example → List Problem → Prop
  /-- The payload says, in letters of any case, that there is no example. -/
  | notApplicable : Text.equalsIgnoringCase payload ['n', '/', 'a'] = true →
      Contributes recognized r payload none []
  /-- There is no arrow outside of double quotes before the comment. -/
  | arrowless : Text.equalsIgnoringCase payload ['n', '/', 'a'] = false →
      ¬HasArrow (payload.takeWhile (· != '#')) →
      Contributes recognized r payload none [.exampleWithoutArrow]
  /-- The first arrow parts the arguments from the result. -/
  | read {before after : Text} {e : Example} {found : List (List Problem)} {slot : Option Piece}
      {last : List Problem} :
      Text.equalsIgnoringCase payload ['n', '/', 'a'] = false →
      PartedAtArrow (payload.takeWhile (· != '#')) before after →
      FilledEach recognized r.argTypes (tokenize (Text.trim before) r.arity).slots e.args found →
      (tokenize (Text.trim after) 1).slots = [slot] →
      Filled recognized .returnValue r.returnType slot e.expected last →
      e.explanation =
        (if '#' ∈ payload then some (Text.trimRight (payload.dropWhile (· != '#'))) else none) →
      Contributes recognized r payload (some e)
        (found.flatten ++ repairs (tokenize (Text.trim before) r.arity) ++
          (last ++ repairs (tokenize (Text.trim after) 1)))

namespace ExampleLine

/-- The blanks between the values and the comment are not looked through for the arrow. -/
theorem exists_partedAtArrow {payload before after : Text}
    (h : splitArrow false (if (payload.dropWhile (· != '#')).isEmpty then payload
      else Text.trimRight (payload.takeWhile (· != '#'))) = some (before, after)) :
    ∃ after', PartedAtArrow (payload.takeWhile (· != '#')) before after' ∧
      Text.trim after' = Text.trim after := by
  have hparted := partedAtArrow_of_splitArrow h
  split at hparted
  · next hnone =>
    have hall := List.takeWhile_append_dropWhile (p := (· != '#')) (l := payload)
    rw [List.isEmpty_iff.mp hnone, List.append_nil] at hall
    exact ⟨after, by rwa [hall], rfl⟩
  · obtain ⟨blanks, hblanks, hbody⟩ :=
      Text.exists_dropEndWhile_append Text.isBlank (payload.takeWhile (· != '#'))
    rw [hbody]
    exact ⟨after ++ blanks, hparted.append blanks, Text.trim_append after hblanks⟩

/-- **The payload of an example line contributes** what the reader of examples makes of it. -/
theorem contributes_added (recognized : List Text) (r : Recipe) (payload : Payload) :
    Contributes recognized r payload.text (added recognized r payload)
      ((apply recognized r payload).2.map Finding.problem) := by
  cases happlicable : isNotApplicable payload.text with
  | true =>
    rw [added, apply, if_pos happlicable, if_pos happlicable]
    exact .notApplicable happlicable
  | false =>
    have harrow := isSome_read_iff recognized r.argTypes r.returnType payload
    simp only [added, apply, happlicable, Bool.false_eq_true, if_false]
    simp only [read] at harrow ⊢
    split at harrow
    · next hsplit =>
      exact .arrowless happlicable fun hhas => absurd (harrow.mpr hhas) (by simp)
    · next before after hsplit =>
      obtain ⟨after', hparted, htrim⟩ := exists_partedAtArrow hsplit
      obtain ⟨found, heach, hfound⟩ := exists_filledEach_argumentsOf recognized r.argTypes
        payload.column before
      obtain ⟨slot, last, hslot, hlast, hproblems⟩ := exists_filled_resultOf recognized r.returnType
        (payload.column + before.length + arrow.length) after
      simp only [List.map_append, hfound, hproblems]
      rw [← htrim] at hslot ⊢
      refine .read happlicable hparted heach hslot hlast ?_
      simp only [List.isEmpty_iff, Text.dropWhile_ne_eq_nil_iff, ite_not]

end ExampleLine

/-! ### The line -/

/-- A missing pipe is reported once. -/
theorem problem_ofLine (line : Text) :
    (Payload.ofLine line).findings.map Finding.problem =
      if '|' ∈ line then [] else [.missingPipe] := by
  have hpipe := Text.dropWhile_ne_eq_nil_iff '|' line
  rw [Payload.ofLine]
  split
  · next hnone =>
    rw [if_neg (hpipe.mp hnone), Payload.withoutPipe]
    split <;> rfl
  · next hsome =>
    have hmem : '|' ∈ line := by
      by_contra hnone
      rw [hpipe.mpr hnone] at hsome
      exact absurd hsome (by simp)
    rw [if_pos hmem]
    rfl

/-- **The whole effect of an example line** on a reading with a recipe under construction. The
recipe gets the line and at most one example, as the payload contributes it, and nothing else of
the recipe and none of the finished recipes changes. What is reported is the missing pipe, if
there is none, and then what the payload contributes, all of it on this line. -/
theorem Session.effect_of_example (options : Options) {s : Session} {line : Text} {r : Recipe}
    (hstate : s.state.next line = ⟨.recipe, .example⟩) (hcurrent : s.current = some r) :
    ∃ t added problems raised, s.feed options line = .ok t ∧
      Contributes options.recognizedTypes r (Payload.ofLine (Text.dropLineEnd line)).text added
        problems ∧
      t.current = some { r with
        examples := r.examples ++ added.toList
        lines := r.lines ++ [Text.dropLineEnd line] } ∧
      t.finished = s.finished ∧ t.diagnostics = s.diagnostics ++ raised ∧
      raised.map Diagnostic.problem =
        (if '|' ∈ line then [] else [.missingPipe]) ++ problems ∧
      ∀ d ∈ raised, d.severity = .ignorable ∧ d.line = s.lineCount + 1 ∧
        d.source = Text.dropLineEnd line := by
  obtain ⟨text, htext⟩ : ∃ text, text = Text.dropLineEnd line := ⟨_, rfl⟩
  have hadvance := state_advance_dropLineEnd s line
  rw [hstate, ← htext] at hadvance
  have hfeed : s.feed options line = .ok ((s.advance text).extended options text r) := by
    rw [feed, ← htext]
    simp only [dispatch, hadvance, change, current_advance, hcurrent, extended]
  have hpipe : '|' ∈ text ↔ '|' ∈ line := htext ▸ Text.mem_dropLineEnd (by decide) line
  rw [← htext]
  refine ⟨_, _, _, _, hfeed,
    ExampleLine.contributes_added options.recognizedTypes r (Payload.ofLine text), ?_, rfl, rfl,
    ?_, ?_⟩
  · simp only [extended, hadvance, readSection, ExampleLine.fst_apply, record]
  · simp only [hadvance, readSection, List.map_map, List.map_append, ← hpipe]
    rw [← problem_ofLine]
    rfl
  · intro d hd
    obtain ⟨finding, -, rfl⟩ := List.mem_map.mp hd
    refine ⟨rfl, rfl, ?_⟩
    rw [htext]
    exact Text.dropLineEnd_dropLineEnd line

/-- An example line with no pipe, a value that is not accepted, a bracket that is not closed and a
value that is missing, for the contract `int int list int -> bool`. -/
def badExample : Text := "EXAMPLE 1 x [2 -> True # why"

/-- An example with its values as they are written in a test. -/
def writtenExample (e : Example) : List Text × Text × Option Text :=
  (e.args.map Python.writeLiteral, Python.writeLiteral e.expected, e.explanation)

/-- What comes of the example line, as it is written in a test. -/
def badExampleWritten : List Text × Text × Option Text :=
  (["1", "None", "[2]", "None"], "True", some "# why")

theorem Session.effect_of_example_badExample : ∃ s t r e,
    Session.start.feedAll .standard ["\"\"\"", "CONTRACT | f : int int list int -> bool"] = .ok s ∧
    s.state.next badExample = ⟨.recipe, .example⟩ ∧ s.current = some r ∧
    s.feed .standard badExample = .ok t ∧ s.diagnostics = [] ∧
    t.diagnostics.map Diagnostic.problem = [.missingPipe, .rejectedValue ⟨"x", "int"⟩,
      .missingValue (.argument 3), .repaired (.unclosed .square)] ∧
    Contributes Options.standard.recognizedTypes r "1 x [2 -> True # why" (some e)
      [.rejectedValue ⟨"x", "int"⟩, .missingValue (.argument 3), .repaired (.unclosed .square)] ∧
    writtenExample e = badExampleWritten := by
  obtain ⟨s, t, r, hs, hstate, hcurrent, hfeed, hnone, hbefore, hproblems, hexamples⟩ :
      ∃ s t r, Session.start.feedAll .standard
          ["\"\"\"", "CONTRACT | f : int int list int -> bool"] = .ok s ∧
        s.state.next badExample = ⟨.recipe, .example⟩ ∧ s.current = some r ∧
        s.feed .standard badExample = .ok t ∧ s.diagnostics = [] ∧ r.examples = [] ∧
        t.diagnostics.map Diagnostic.problem = [.missingPipe, .rejectedValue ⟨"x", "int"⟩,
          .missingValue (.argument 3), .repaired (.unclosed .square)] ∧
        t.current.map (fun r => r.examples.map writtenExample) =
          some [badExampleWritten] :=
    ⟨_, _, _, rfl, rfl, rfl, rfl, rfl, rfl, by decide +kernel, by decide +kernel⟩
  obtain ⟨t', added, problems, raised, hfeed', hcontributes, hcurrent', -, hdiagnostics, hraised,
    -⟩ := Session.effect_of_example .standard hstate hcurrent
  obtain rfl := Except.ok.inj (hfeed.symm.trans hfeed')
  -- What the line adds is read off the recipe and the diagnostics after it.
  obtain ⟨e, rfl, hwritten⟩ : ∃ e, added = some e ∧ writtenExample e = badExampleWritten := by
    simpa [hcurrent', hbefore, Option.toList_eq_singleton_iff] using hexamples
  have hpipe : '|' ∉ badExample := by decide
  have hpayload :
      (Payload.ofLine (Text.dropLineEnd badExample)).text = "1 x [2 -> True # why" := rfl
  rw [hnone, List.nil_append] at hdiagnostics
  rw [if_neg hpipe, List.singleton_append, ← hdiagnostics, hproblems] at hraised
  obtain ⟨-, rfl⟩ := List.cons_eq_cons.mp hraised
  exact ⟨s, t, r, e, hs, hstate, hcurrent, hfeed, hnone, hproblems, hpayload ▸ hcontributes,
    hwritten⟩

end DesignRecipe.Outline

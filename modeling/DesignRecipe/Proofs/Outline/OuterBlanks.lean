import DesignRecipe.Proofs.Outline.MissingPipe

/-!
# Blanks around lines

Every line is read as if the blanks around it were not there, but for two things: a recipe keeps its
lines as they are, and the level of an entry of a body outline is told from the blanks in front of
it. So what a reading comes to is compared without these, and without the columns of diagnostics:
this is its *core* (`Recipe.core`, `Session.core`, `Output.core`).

The core of a reading is that of the reading of the trimmed lines (`Session.core_feed`,
`Session.core_finish`). Hence two outlines that are the same once their lines are trimmed come to
the same (`core_readLines`), whatever blanks are put around the lines of one of them.

The reason is found where a payload is cut out of its line: it is trimmed itself, whether the line
has been trimmed before or not, and the parts that are cut out of it do not see where it started.
-/

namespace DesignRecipe

/-! ### The core of what is read -/

/-- **A diagnostic without its place** in the line: its problem, its severity and its line. -/
def Diagnostic.core (d : Diagnostic) : Diagnostic := { d with column := 0, source := [] }

/-- **A recipe without the blanks around its lines** and without the levels of its outline. -/
def Recipe.core (r : Recipe) : Recipe :=
  { r with
    lines := r.lines.map Text.trim
    outline := r.outline.map fun e => { e with level := 0 } }

namespace Outline

/-- The core of a refusal is made of those of its diagnostics. -/
def Abort.core (a : Abort) : Abort := ⟨a.critical.core, a.earlier.map Diagnostic.core⟩

/-- The core of an output is made of those of its recipes and diagnostics. -/
def Output.core (out : Output) : Output :=
  ⟨out.recipes.map Recipe.core, out.diagnostics.map Diagnostic.core⟩

/-- **The core of a reading**: how many lines it has read and in which state it is, and the cores
of its recipes and diagnostics. -/
def Session.core (s : Session) : Session where
  lineCount := s.lineCount
  line := []
  previousLine := []
  state := s.state
  current := s.current.map Recipe.core
  finished := s.finished.map Recipe.core
  diagnostics := s.diagnostics.map Diagnostic.core

/-- The core of a result that may be a refusal. -/
def coreOf {α : Type} (core : α → α) : Except Abort α → Except Abort α
  | .ok x => .ok (core x)
  | .error a => .error a.core

section CoreOf

variable {α : Type} {core : α → α} {x : α} {a : Abort} {e : Except Abort α}

theorem exists_ok_of_coreOf (h : coreOf core e = coreOf core (.ok x)) :
    ∃ y, e = .ok y ∧ core y = core x := by
  cases e with
  | ok y => exact ⟨y, rfl, Except.ok.inj h⟩
  | error b => exact absurd h (by simp [coreOf])

theorem exists_error_of_coreOf (h : coreOf core e = coreOf core (.error a)) :
    ∃ b, e = .error b ∧ b.core = a.core := by
  cases e with
  | ok y => exact absurd h (by simp [coreOf])
  | error b => exact ⟨b, rfl, Except.error.inj h⟩

end CoreOf

end Outline

@[simp] theorem Diagnostic.core_comp_core : Diagnostic.core ∘ Diagnostic.core = Diagnostic.core :=
  rfl

@[simp] theorem Recipe.core_core (r : Recipe) : r.core.core = r.core := by
  simp [core, Function.comp_def]

@[simp] theorem Recipe.core_comp_core : Recipe.core ∘ Recipe.core = Recipe.core :=
  funext core_core

@[simp] theorem Recipe.gaps_core (r : Recipe) : r.core.gaps = r.gaps := by
  simp [core, gaps]

namespace Outline

namespace Session

theorem toList_current_core (s : Session) :
    s.core.current.toList = s.current.toList.map Recipe.core := Option.toList_map ..

@[simp] theorem map_finished_core (s : Session) :
    s.core.finished.map Recipe.core = s.finished.map Recipe.core := by
  simp [core]

@[simp] theorem map_diagnostics_core (s : Session) :
    s.core.diagnostics.map Diagnostic.core = s.diagnostics.map Diagnostic.core := by
  simp [core]

end Session

/-! ### The payload -/

namespace Payload

/-- **The payload of a trimmed line is that of the line.** -/
theorem text_ofLine_trim (line : Text) : (ofLine (Text.trim line)).text = (ofLine line).text := by
  by_cases hpipe : '|' ∈ Text.trim line
  · -- The blanks behind the line are behind the payload.
    obtain ⟨before, after, hbefore, hafter, hline⟩ := Text.exists_trim line
    obtain ⟨front, rest, hcore, hfront⟩ := List.eq_append_cons_of_mem hpipe
    have hnotMem : '|' ∉ before := fun hmem => absurd (hbefore _ hmem) (by decide)
    have hline' : line = (before ++ front) ++ '|' :: (rest ++ after) := by
      rw [hline, hcore]
      simp
    obtain ⟨column, htrimmed⟩ := exists_ofLine_append hfront rest
    obtain ⟨column', hpadded⟩ := exists_ofLine_append (List.not_mem_append hnotMem hfront)
      (rest ++ after)
    rw [hcore, hline', htrimmed, hpadded]
    exact (Text.trim_append rest hafter).symm
  · have hnone := (Text.dropWhile_ne_eq_nil_iff '|' _).mpr hpipe
    have hnone' := (Text.dropWhile_ne_eq_nil_iff '|' line).mpr
      (mt (Text.mem_trim (by decide) line).mpr hpipe)
    simp only [ofLine, hnone, hnone', withoutPipe, Text.trim_trim]
    split <;> rfl

theorem problem_ofLine_trim (line : Text) : (ofLine (Text.trim line)).findings.map Finding.problem =
    (ofLine line).findings.map Finding.problem := by
  simp only [problem_ofLine, Text.mem_trim (show Text.isBlank '|' = false by decide)]

end Payload

/-! ### The readers of sections -/

/-- The readers of sections leave the lines and the outline of a recipe alone. -/
theorem Purpose.apply_core (r : Recipe) (purpose : Text) : apply r.core purpose =
    (apply r purpose).core := rfl

theorem InOuts.apply_core (recognized : List Text) (r : Recipe) (payload : Payload) :
    apply recognized r.core payload =
      ((apply recognized r payload).1.core, (apply recognized r payload).2) := rfl

theorem ExampleLine.apply_core (recognized : List Text) (r : Recipe) (payload : Payload) :
    apply recognized r.core payload =
      ((apply recognized r payload).1.core, (apply recognized r payload).2) := by
  rw [apply, apply]
  split <;> rfl

namespace Session

variable {options : Options} {s t : Session} {lines lines' : List Text} {line line' : Text}

theorem core_record (text : Text) (r : Recipe) :
    (record text r).core = record (Text.trim text) r.core := by
  simp [record, Recipe.core]

/-- **A section makes the same of the core** of a recipe and the trimmed line: a recipe with the
same core, and the same problems. -/
theorem core_readSection (options : Options) (heading : Heading) (text : Text) (r : Recipe) :
    (readSection options heading (Text.trim text) r.core).1.core =
        (readSection options heading text r).1.core ∧
      (readSection options heading (Text.trim text) r.core).2.map Finding.problem =
        (readSection options heading text r).2.map Finding.problem := by
  have htext := Payload.text_ofLine_trim text
  have hfound := Payload.problem_ofLine_trim text
  cases heading with
  | purpose =>
    refine ⟨?_, hfound⟩
    simp only [readSection, core_record, htext, Purpose.apply_core, Recipe.core_core,
      Text.trim_filter_trim]
  | inOuts =>
    obtain ⟨hread, hmore⟩ := told_eq_iff.mp (InOuts.told_apply options.recognizedTypes r htext)
    simp only [readSection, core_record, InOuts.apply_core, Recipe.core_core, Text.trim_trim,
      hread, List.map_append, hfound, hmore, and_self]
  | «example» =>
    obtain ⟨hread, hmore⟩ := told_eq_iff.mp
      (ExampleLine.told_apply options.recognizedTypes r htext)
    simp only [readSection, core_record, ExampleLine.apply_core, Recipe.core_core, Text.trim_trim,
      hread, List.map_append, hfound, hmore, and_self]
  | none => simp only [readSection, core_record, Recipe.core_core, Text.trim_trim, and_self]
  | contract => simp only [readSection, core_record, Recipe.core_core, Text.trim_trim, and_self]

/-! ### One line -/

/-- **The recipe under construction after a line** is the same but for blanks if the line is
trimmed. -/
theorem core_currentAfter (options : Options) (state : State) (text : Text)
    (current : Option Recipe) :
    (currentAfter options state (Text.trim text) (current.map Recipe.core)).map Recipe.core =
      (currentAfter options state text current).map Recipe.core := by
  have hentry : Body.isEntry (Text.trim text) = Body.isEntry text := by simp [Body.isEntry]
  simp only [currentAfter, hentry]
  split
  · obtain ⟨c, hread, hread'⟩ | ⟨f, f', hread, hread'⟩ :=
      Contract.exists_read (Payload.text_ofLine_trim text)
    · simp [hread, hread', core_record]
    · simp [hread, hread']
  · split
    · simp only [Option.map_map, Function.comp_def, (core_readSection options _ text _).1]
    · split
      · cases current with
        | none => rfl
        | some r => simp [Recipe.core, Body.entry, Function.comp_def]
      · rw [Option.map_map, Recipe.core_comp_core]
    · rw [Option.map_map, Recipe.core_comp_core]

theorem map_core_completeness (r : Recipe) (number : Nat) (source source' : Text) :
    (completeness r.core number source').map Diagnostic.core =
      (completeness r number source).map Diagnostic.core := by
  rw [completeness, completeness, Recipe.isComplete, Recipe.isComplete, Recipe.gaps_core]
  by_cases hcomplete : r.gaps.isEmpty = true
  · rw [if_pos hcomplete, if_pos hcomplete]
  · rw [if_neg hcomplete, if_neg hcomplete]
    rfl

/-- What the recipe under construction lacks is the same for its core. -/
theorem map_core_lacks (s : Session) (number : Nat) (source source' : Text) :
    (s.core.current.toList.flatMap (completeness · number source')).map Diagnostic.core =
      (s.current.toList.flatMap (completeness · number source)).map Diagnostic.core := by
  rw [toList_current_core, List.flatMap_map, List.map_flatMap, List.map_flatMap]
  exact List.flatMap_congr fun r _ => map_core_completeness r number source source'

/-- Findings make diagnostics that are told apart by their problems. -/
theorem map_core_ofFinding {findings findings' : List Finding}
    (h : findings'.map Finding.problem = findings.map Finding.problem) (number : Nat)
    (source source' : Text) :
    (findings'.map (Diagnostic.ofFinding .ignorable number source')).map Diagnostic.core =
      (findings.map (Diagnostic.ofFinding .ignorable number source)).map Diagnostic.core := by
  have hcore := congrArg (List.map fun p => Diagnostic.mk .ignorable number 0 p []) h
  rw [List.map_map, List.map_map] at hcore ⊢
  exact hcore

/-- A trimmed line leads to the same state. -/
theorem next_core (s : Session) (line : Text) :
    s.core.state.next (Text.trim line) = s.state.next line :=
  State.next_trim s.state line

/-- **What a line raises** is the same but for the places in it. -/
theorem core_raised (options : Options) (s : Session) (line : Text) :
    (raised options s.core (Text.trim line)).map Diagnostic.core =
      (raised options s line).map Diagnostic.core := by
  have htrim : Text.dropLineEnd (Text.trim line) = Text.trim (Text.dropLineEnd line) := by simp
  have hfound := Payload.problem_ofLine_trim (Text.dropLineEnd line)
  rw [raised, raised, next_core, htrim]
  split
  · rw [List.map_append, List.map_append]
    refine congrArg₂ _ (map_core_ofFinding hfound _ _ _) ?_
    obtain ⟨c, hread, hread'⟩ | ⟨f, f', hread, hread'⟩ :=
      Contract.exists_read (Payload.text_ofLine_trim (Text.dropLineEnd line))
    · rw [hread, hread']
      exact map_core_lacks s _ _ _
    · rw [hread, hread']
  · split
    · rw [toList_current_core, List.flatMap_map, List.map_flatMap, List.map_flatMap]
      exact List.flatMap_congr fun r _ =>
        map_core_ofFinding (core_readSection options _ _ r).2 _ _ _
    · rfl

/-- A trimmed line stops the same readings. -/
theorem exists_feed_core_eq_error_iff :
    (∃ a, s.core.feed options (Text.trim line) = .error a) ↔
      ∃ a, s.feed options line = .error a := by
  have htext := Payload.text_ofLine_trim (Text.dropLineEnd line)
  rw [Text.trim_dropLineEnd] at htext
  rw [exists_feed_eq_error_iff, exists_feed_eq_error_iff, next_core, Text.dropLineEnd_trim, htext]
  simp [Owned, Session.core]

/-- **A trimmed line does the same** to the core of a reading. -/
theorem core_eq_of_feed {t' : Session} (h : s.feed options line = .ok t)
    (h' : s.core.feed options (Text.trim line) = .ok t') : t'.core = t.core := by
  have hnotes := notes_of_feed h
  have hnotes' := notes_of_feed h'
  have hlineCount : t'.lineCount = t.lineCount := by
    rw [hnotes'.lineCount, hnotes.lineCount]
    rfl
  have hstate : t'.state = t.state := by rw [hnotes'.state, hnotes.state, next_core]
  have hcurrent : t'.current.map Recipe.core = t.current.map Recipe.core := by
    rw [current_of_feed h', current_of_feed h, next_core, Text.dropLineEnd_trim,
      ← Text.trim_dropLineEnd line]
    exact core_currentAfter options _ _ _
  have hfinished : t'.finished.map Recipe.core = t.finished.map Recipe.core := by
    rw [finished_of_feed h', finished_of_feed h, next_core, List.map_append, List.map_append,
      map_finished_core]
    split
    · rw [toList_current_core, List.map_map, Recipe.core_comp_core]
    · rfl
  have hdiagnostics : t'.diagnostics.map Diagnostic.core = t.diagnostics.map Diagnostic.core := by
    rw [diagnostics_of_feed h', diagnostics_of_feed h, List.map_append, List.map_append,
      core_raised, map_diagnostics_core]
  rw [Session.core, Session.core, hlineCount, hstate, hcurrent, hfinished, hdiagnostics]

/-- A line that stops the reading is refused for the same. -/
theorem core_eq_of_feed_error {a b : Abort} (h : s.feed options line = .error a)
    (h' : s.core.feed options (Text.trim line) = .error b) : b.core = a.core := by
  have hearlier : b.earlier.map Diagnostic.core = a.earlier.map Diagnostic.core := by
    have hraised := diagnosed_feed options s line
    have hraised' := diagnosed_feed options s.core (Text.trim line)
    rw [h] at hraised
    rw [h'] at hraised'
    simp only [diagnosed] at hraised hraised'
    rw [hraised, hraised', List.map_append, List.map_append, core_raised, map_diagnostics_core]
  obtain ⟨hseverity, hline, -, hproblem⟩ := critical_of_feed h
  obtain ⟨hseverity', hline', -, hproblem'⟩ := critical_of_feed h'
  rw [next_core] at hproblem'
  rw [Abort.core, Abort.core, hearlier, Diagnostic.core, Diagnostic.core, hseverity, hline,
    hproblem, hseverity', hline', hproblem']
  rfl

/-- **A line comes to the same** if it and what has been read before are reduced to their cores. -/
theorem core_feed (options : Options) (s : Session) (line : Text) :
    coreOf Session.core (s.core.feed options (Text.trim line)) =
      coreOf Session.core (s.feed options line) := by
  cases h : s.feed options line with
  | error a =>
    obtain ⟨b, h'⟩ := exists_feed_core_eq_error_iff.mpr ⟨a, h⟩
    rw [h', coreOf, coreOf, core_eq_of_feed_error h h']
  | ok t =>
    cases h' : s.core.feed options (Text.trim line) with
    | error b =>
      obtain ⟨a, ha⟩ := exists_feed_core_eq_error_iff.mp ⟨b, h'⟩
      exact absurd (h.symm.trans ha) (by simp)
    | ok t' => rw [coreOf, coreOf, core_eq_of_feed h h']

/-! ### Two readings -/

/-- **Two readings with one core keep it** at lines that are the same once trimmed. -/
theorem coreOf_feed_congr (hcore : t.core = s.core) (hline : Text.trim line' = Text.trim line)
    (options : Options) : coreOf Session.core (t.feed options line') =
      coreOf Session.core (s.feed options line) := by
  rw [← core_feed options t, ← core_feed options s, hcore, hline]

/-- **Two runs with one core keep it**, up to the line that stops both. -/
theorem coreOf_feedAll_congr (hcore : t.core = s.core)
    (hlines : lines'.map Text.trim = lines.map Text.trim) (options : Options) :
    coreOf Session.core (t.feedAll options lines') =
      coreOf Session.core (s.feedAll options lines) := by
  induction lines generalizing lines' s t with
  | nil =>
    obtain rfl := List.map_eq_nil_iff.mp hlines
    exact congrArg Except.ok hcore
  | cons line lines ih =>
    obtain ⟨line', rest, rfl, hline, hrest⟩ := List.map_eq_cons_iff.mp hlines
    have hfeed := coreOf_feed_congr hcore hline options
    rw [feedAll, feedAll]
    cases h : s.feed options line with
    | error a =>
      rw [h] at hfeed
      obtain ⟨b, h', hrefusal⟩ := exists_error_of_coreOf hfeed
      rw [h']
      exact congrArg Except.error hrefusal
    | ok u =>
      rw [h] at hfeed
      obtain ⟨u', h', hcore'⟩ := exists_ok_of_coreOf hfeed
      rw [h']
      exact ih hcore' hrest

/-- **The end comes to the same** for the core of a reading. -/
theorem core_finish (s : Session) :
    coreOf Output.core s.core.finish = coreOf Output.core s.finish := by
  have hnone : s.core.current.isNone = s.current.isNone := Option.isNone_map
  rw [finish, finish, hnone]
  split
  · exact congrArg Except.error (congrArg₂ Abort.mk rfl (map_diagnostics_core s))
  · refine congrArg Except.ok (congrArg₂ Output.mk ?_ ?_)
    · rw [finished_close, finished_close, List.map_append, List.map_append, map_finished_core,
        toList_current_core, List.map_map, Recipe.core_comp_core]
    · rw [diagnostics_close, diagnostics_close, List.map_append, List.map_append,
        map_diagnostics_core]
      exact congrArg _ (map_core_lacks s _ _ _)

end Session

open Session

/-- A reading of lines that are the same once trimmed aborts at the same line, for the same. -/
theorem AbortsAt.exists_of_map_trim {options : Options} {lines lines' : List Text} {i : Nat}
    {a : Abort} (h : AbortsAt options lines i a)
    (hlines : lines'.map Text.trim = lines.map Text.trim) :
    ∃ b, AbortsAt options lines' i b ∧ b.core = a.core := by
  obtain ⟨s, line, hs, hline, hfeed⟩ := h
  have htake : (lines'.take i).map Text.trim = (lines.take i).map Text.trim := by
    rw [List.map_take, List.map_take, hlines]
  have hbefore : coreOf Session.core (start.feedAll options (lines'.take i)) =
      coreOf Session.core (.ok s) := hs ▸ coreOf_feedAll_congr rfl htake options
  obtain ⟨t, ht, hcore⟩ := exists_ok_of_coreOf hbefore
  have hthere := congrArg (·[i]?) hlines
  simp only [List.getElem?_map, hline, Option.map_some, Option.map_eq_some_iff] at hthere
  obtain ⟨line', hline', htrim⟩ := hthere
  have hstop := coreOf_feed_congr hcore htrim options
  rw [hfeed] at hstop
  obtain ⟨b, hfeed', hrefusal⟩ := exists_error_of_coreOf hstop
  exact ⟨b, ⟨t, line', ht, hline', hfeed'⟩, hrefusal⟩

/-- **The blanks around lines do not matter.** Take two outlines whose lines are the same once they
are trimmed, such as an outline and the same with blanks put around its lines (`Text.trim_pad`).
After as many lines they are in the same state and have come to the same, they abort at the same
line for the same, and in the end they give the same. Here the places in the lines that diagnostics
point at do not count, nor do the blanks around the lines of a recipe and the levels of its outline,
but everything else does. -/
theorem core_readLines (options : Options) {lines lines' : List Text}
    (hlines : lines'.map Text.trim = lines.map Text.trim) :
    (∀ i, State.after (lines'.take i) = State.after (lines.take i)) ∧
      (∀ i, coreOf Session.core (start.feedAll options (lines'.take i)) =
        coreOf Session.core (start.feedAll options (lines.take i))) ∧
      (∀ i core, (∃ a, AbortsAt options lines' i a ∧ a.core = core) ↔
        ∃ a, AbortsAt options lines i a ∧ a.core = core) ∧
      coreOf Output.core (readLines options lines') =
        coreOf Output.core (readLines options lines) := by
  have htake (i : Nat) : (lines'.take i).map Text.trim = (lines.take i).map Text.trim := by
    rw [List.map_take, List.map_take, hlines]
  refine ⟨fun i => ?_, fun i => coreOf_feedAll_congr rfl (htake i) options, fun i core => ?_, ?_⟩
  · rw [← State.after_map_trim, htake, State.after_map_trim]
  · constructor
    · rintro ⟨b, hb, rfl⟩
      exact hb.exists_of_map_trim hlines.symm
    · rintro ⟨a, ha, rfl⟩
      exact ha.exists_of_map_trim hlines
  · have hall : coreOf Session.core (start.feedAll options lines') =
        coreOf Session.core (start.feedAll options lines) := coreOf_feedAll_congr rfl hlines options
    rw [readLines, readLines]
    cases hs : start.feedAll options lines with
    | error a =>
      rw [hs] at hall
      obtain ⟨b, ht, hrefusal⟩ := exists_error_of_coreOf hall
      rw [ht]
      exact congrArg Except.error hrefusal
    | ok s =>
      rw [hs] at hall
      obtain ⟨t, ht, hcore⟩ := exists_ok_of_coreOf hall
      rw [ht]
      change coreOf Output.core t.finish = coreOf Output.core s.finish
      rw [← core_finish t, ← core_finish s, hcore]

/-- Lines with blanks around them. -/
def padded (lines : List Text) : List Text :=
  lines.map fun line => ['\t', ' '] ++ line ++ [' ', '\n']

theorem map_trim_padded (lines : List Text) :
    (padded lines).map Text.trim = lines.map Text.trim := by
  have hpad (line : Text) : Text.trim (['\t', ' '] ++ line ++ [' ', '\n']) = Text.trim line :=
    Text.trim_pad (List.all_eq_true.mp (by decide)) (List.all_eq_true.mp (by decide)) line
  rw [padded, List.map_map]
  exact List.map_congr_left fun line _ => hpad line

theorem core_readLines_padded :
    (padded sample).map Text.trim = sample.map Text.trim ∧
      (∃ out out', readLines .standard sample = .ok out ∧
        readLines .standard (padded sample) = .ok out' ∧ out'.core = out.core ∧
        out.recipes.map Recipe.parameters = [["n".toList], []] ∧ out.diagnostics.length = 1) ∧
      ∃ a b, AbortsAt .standard arrowlessSample 4 a ∧
        AbortsAt .standard (padded arrowlessSample) 4 b ∧ b.core = a.core := by
  refine ⟨map_trim_padded _, ?_, ?_⟩
  · obtain ⟨out, hout, hparameters, hlength⟩ : ∃ out,
        readLines .standard sample = .ok out ∧
          out.recipes.map Recipe.parameters = [["n".toList], []] ∧
          out.diagnostics.length = 1 := ⟨_, rfl, rfl, rfl⟩
    obtain ⟨-, -, -, hread⟩ := core_readLines .standard (map_trim_padded sample)
    rw [hout] at hread
    obtain ⟨out', hout', hcore⟩ := exists_ok_of_coreOf hread
    exact ⟨out, out', hout, hout', hcore, hparameters, hlength⟩
  · obtain ⟨-, -, haborts, -⟩ := core_readLines .standard (map_trim_padded arrowlessSample)
    obtain ⟨a, ha⟩ : ∃ a, AbortsAt .standard arrowlessSample 4 a := ⟨_, _, _, rfl, rfl, rfl⟩
    obtain ⟨b, hb, hcore⟩ := (haborts 4 a.core).mpr ⟨a, ha, rfl⟩
    exact ⟨a, b, ha, hb, hcore⟩

end Outline

end DesignRecipe

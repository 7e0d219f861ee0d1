import DesignRecipe.Proofs.Outline.ExampleEffect
import DesignRecipe.Proofs.Outline.Header
import DesignRecipe.Proofs.Outline.Placement

/-!
# A missing pipe costs a diagnostic

A line with a header says the same with its pipe and without it. It leads to the same state and has
the same payload, only at another column, and where a payload starts matters to nothing but the
columns of what is found in it (`told`). So what comes of two such lines is the same, but for the
line that a recipe keeps of them (`Session.SaysSame.sameResult_feed`).

What is said of the two lines differs by the missing pipe, where the payload is looked for at all. A
contract is looked into in any case. The other sections belong to a recipe, and where there is none
the reading stops before that: then nothing is said of the pipe (`Session.not_said_missingPipe`).
-/

namespace DesignRecipe.Outline

/-! ### Where a payload starts does not matter -/

section Told

/-- **What a reader makes of a text**, but for the columns of what it has found. -/
def told {α : Type} (x : α × List Finding) : α × List Problem := (x.1, x.2.map Finding.problem)

theorem told_eq_iff {α : Type} {x y : α × List Finding} :
    told x = told y ↔ x.1 = y.1 ∧ x.2.map Finding.problem = y.2.map Finding.problem := by
  simp [told]

variable (recognized : List Text) {payload payload' : Payload}

theorem InOuts.told_sideOf (channel : Channel) (column column' : Nat) (side : Text) :
    told (sideOf recognized channel column' side) =
      told (sideOf recognized channel column side) := by
  simp only [sideOf]
  split
  · rfl
  · split <;> rfl

theorem InOuts.told_apply (r : Recipe) (h : payload'.text = payload.text) :
    told (apply recognized r payload') = told (apply recognized r payload) := by
  simp only [apply, channelsOf, h]
  generalize (payload.text.takeWhile (· != '#')).takeWhile (· != '/') = before
  split
  · rfl
  · next after _ =>
    obtain ⟨hinputs, hfound⟩ := told_eq_iff.mp
      (told_sideOf recognized .input payload.column payload'.column before)
    obtain ⟨houtputs, hmore⟩ := told_eq_iff.mp
      (told_sideOf recognized .output (payload.column + before.length + 1)
        (payload'.column + before.length + 1) after)
    rw [told_eq_iff]
    simp only [hinputs, houtputs, List.map_append, hfound, hmore, and_self]

namespace ExampleLine

theorem told_valueAt (slot : Slot) (tag : Text) (token : Option Piece)
    (start stop start' stop' : Nat) :
    told (valueAt recognized slot tag start' stop' token) =
      told (valueAt recognized slot tag start stop token) := by
  cases token with
  | none => rfl
  | some t =>
    simp only [valueAt]
    split <;> rfl

theorem told_valuesAt (position : Nat) (tags : List Text) (slots : List (Option Piece))
    (start stop start' stop' : Nat) :
    told (valuesAt recognized start' stop' position tags slots) =
      told (valuesAt recognized start stop position tags slots) := by
  induction tags generalizing position slots with
  | nil => rfl
  | cons tag tags ih =>
    have hhere := told_valueAt recognized (.argument position) tag
      (slots.head?.getD none) start stop start' stop'
    have hmore := ih (position + 1) slots.tail
    rw [told_eq_iff] at hhere hmore ⊢
    simp only [valuesAt, List.map_append, hhere, hmore, and_self]

theorem told_argumentsOf (argTypes : List Text) (column column' : Nat) (before : Text) :
    told (argumentsOf recognized argTypes column' before) =
      told (argumentsOf recognized argTypes column before) := by
  obtain ⟨hvalues, hfound⟩ := told_eq_iff.mp (told_valuesAt recognized 0 argTypes
    (tokenize (Text.trim before) argTypes.length).slots (column + Text.leadingBlanks before)
    (column + (Text.trimRight before).length) (column' + Text.leadingBlanks before)
    (column' + (Text.trimRight before).length))
  rw [told_eq_iff]
  simp only [argumentsOf, List.map_append, problem_repairsAt, hvalues, hfound, and_self]

theorem told_resultOf (returnType : Text) (column column' : Nat) (after : Text) :
    told (resultOf recognized returnType column' after) =
      told (resultOf recognized returnType column after) := by
  obtain ⟨hvalue, hfound⟩ := told_eq_iff.mp (told_valueAt recognized .returnValue
    returnType ((tokenize (Text.trim after) 1).slots.head?.getD none)
    (column + Text.leadingBlanks after) (column + after.length)
    (column' + Text.leadingBlanks after) (column' + after.length))
  rw [told_eq_iff]
  simp only [resultOf, List.map_append, problem_repairsAt, hvalue, hfound, and_self]

theorem told_read (argTypes : List Text) (returnType : Text) (h : payload'.text = payload.text) :
    told (read recognized argTypes returnType payload') =
      told (read recognized argTypes returnType payload) := by
  simp only [read, h]
  split
  · rfl
  · next before after _ =>
    obtain ⟨hargs, hfound⟩ := told_eq_iff.mp (told_argumentsOf recognized argTypes
      payload.column payload'.column before)
    obtain ⟨hresult, hmore⟩ := told_eq_iff.mp (told_resultOf recognized returnType
      (payload.column + before.length + arrow.length)
      (payload'.column + before.length + arrow.length) after)
    rw [told_eq_iff]
    simp only [List.map_append, hargs, hfound, hresult, hmore, and_self]

theorem told_apply (r : Recipe) (h : payload'.text = payload.text) :
    told (apply recognized r payload') = told (apply recognized r payload) := by
  obtain ⟨hread, hfound⟩ := told_eq_iff.mp (told_read recognized r.argTypes
    r.returnType h)
  simp only [apply, h]
  split
  · rfl
  · rw [told_eq_iff]
    exact ⟨by rw [hread], hfound⟩

end ExampleLine

end Told

/-- The words of a contract are those of the payload, wherever it starts. -/
theorem Contract.exists_read {payload payload' : Payload} (h : payload'.text = payload.text) :
    (∃ c, read payload = .ok c ∧ read payload' = .ok c) ∨
      ∃ f f', read payload = .error f ∧ read payload' = .error f' := by
  simp only [read, h]
  split
  · exact .inl ⟨_, rfl, rfl⟩
  · exact .inr ⟨_, _, rfl, rfl⟩

namespace Session

/-! ### Two lines with one payload -/

variable {options : Options} {s : Session} {line line' : Text} {heading : Heading}

/-- **Two lines say the same** to a reading: they lead to the same state and have the same payload,
and neither is a comment of a body outline. -/
structure SaysSame (s : Session) (line line' : Text) : Prop where
  next : s.state.next line' = s.state.next line
  text : (Payload.ofLine (Text.dropLineEnd line')).text =
    (Payload.ofLine (Text.dropLineEnd line)).text
  noEntry : (Text.trim line).head? ≠ some '#'
  noEntry' : (Text.trim line').head? ≠ some '#'

/-- **Two recipes that differ at most in the last line** that is kept of them. -/
inductive SameButLine (text text' : Text) : Option Recipe → Option Recipe → Prop
  | same (current : Option Recipe) : SameButLine text text' current current
  | recorded (r : Recipe) : SameButLine text text' (some (record text r)) (some (record text' r))

/-- **Two results of a line that differ at most in the line**: both readings go on, with the same
recipes but for the line, or both stop at the same message. -/
inductive SameResult (line line' : Text) : Except Abort Session → Except Abort Session → Prop
  | read {t t' : Session} : t'.state = t.state → t'.finished = t.finished →
      SameButLine (kept t.state.heading line) (kept t.state.heading line') t.current t'.current →
      SameResult line line' (.ok t) (.ok t')
  | stopped {a a' : Abort} : a'.critical.message = a.critical.message →
      SameResult line line' (.error a) (.error a')

namespace SaysSame

variable (h : SaysSame s line line')

include h

/-- A section makes the same recipe of the same payload, but for the line. -/
theorem sameButLine_readSection (options : Options) (heading : Heading) (r : Recipe) :
    SameButLine (kept heading line) (kept heading line')
      (some (readSection options heading (Text.dropLineEnd line) r).1)
      (some (readSection options heading (Text.dropLineEnd line') r).1) := by
  cases heading with
  | purpose =>
    simp only [readSection, h.text]
    exact .recorded _
  | inOuts =>
    have hread := (told_eq_iff.mp (InOuts.told_apply options.recognizedTypes r h.text)).1
    simp only [readSection, hread]
    exact .recorded _
  | «example» =>
    have hread := (told_eq_iff.mp (ExampleLine.told_apply options.recognizedTypes r h.text)).1
    simp only [readSection, hread]
    exact .recorded _
  | none => exact .recorded r
  | contract => exact .recorded r

/-- What a section finds in the payload is the same, behind what was found on the way to it. -/
theorem exists_problems_readSection (options : Options)
    (hheading : heading = .purpose ∨ heading = .inOuts ∨ heading = .example) (r : Recipe) : ∃ own,
      (readSection options heading (Text.dropLineEnd line) r).2.map Finding.problem =
        (Payload.ofLine (Text.dropLineEnd line)).findings.map Finding.problem ++ own ∧
      (readSection options heading (Text.dropLineEnd line') r).2.map Finding.problem =
        (Payload.ofLine (Text.dropLineEnd line')).findings.map Finding.problem ++ own := by
  rcases hheading with rfl | rfl | rfl
  · exact ⟨[], (List.append_nil _).symm, (List.append_nil _).symm⟩
  · have hfound := (told_eq_iff.mp (InOuts.told_apply options.recognizedTypes r h.text)).2
    refine ⟨(InOuts.apply options.recognizedTypes r
      (Payload.ofLine (Text.dropLineEnd line))).2.map Finding.problem, List.map_append, ?_⟩
    rw [← hfound]
    exact List.map_append
  · have hfound := (told_eq_iff.mp (ExampleLine.told_apply options.recognizedTypes r h.text)).2
    refine ⟨(ExampleLine.apply options.recognizedTypes r
      (Payload.ofLine (Text.dropLineEnd line))).2.map Finding.problem, List.map_append, ?_⟩
    rw [← hfound]
    exact List.map_append

theorem sameButLine_currentAfter (options : Options) (current : Option Recipe) :
    SameButLine (kept (s.state.next line).heading line) (kept (s.state.next line).heading line')
      (currentAfter options (s.state.next line) (Text.dropLineEnd line) current)
      (currentAfter options (s.state.next line) (Text.dropLineEnd line') current) := by
  have hentry : Body.isEntry (Text.dropLineEnd line) = false := by
    simpa [Body.isEntry] using h.noEntry
  have hentry' : Body.isEntry (Text.dropLineEnd line') = false := by
    simpa [Body.isEntry] using h.noEntry'
  generalize s.state.next line = state
  simp only [currentAfter, hentry, hentry', Bool.false_eq_true, if_false]
  split
  · next hcontract =>
    subst hcontract
    obtain ⟨c, hread, hread'⟩ | ⟨f, f', hread, hread'⟩ := Contract.exists_read h.text
    · rw [hread, hread']
      exact .recorded _
    · rw [hread, hread']
      exact .same _
  · split
    · cases current with
      | none => exact .same _
      | some r => exact h.sameButLine_readSection options _ r
    · exact .same _
    · exact .same _

/-- **Two lines that say the same have the same result**, but for the line itself. -/
theorem sameResult_feed (options : Options) :
    SameResult line line' (s.feed options line) (s.feed options line') := by
  have howned (state : State) : Owned state line' ↔ Owned state line := by
    simp [Owned, h.noEntry, h.noEntry']
  cases hfeed : s.feed options line with
  | ok t =>
    obtain ⟨hcontract, hneeds⟩ := not_stopped_of_feed hfeed
    obtain ⟨t', hfeed'⟩ : ∃ t', s.feed options line' = .ok t' :=
      exists_feed_of_not_stopped (by rwa [h.next, h.text]) (by rwa [h.next, howned])
    have hstate : t.state = s.state.next line := (notes_of_feed hfeed).state
    rw [hfeed']
    refine .read ?_ ?_ ?_
    · rw [hstate, (notes_of_feed hfeed').state, h.next]
    · rw [finished_of_feed hfeed, finished_of_feed hfeed', h.next]
    · rw [current_of_feed hfeed, current_of_feed hfeed', h.next, hstate]
      exact h.sameButLine_currentAfter options s.current
  | error a =>
    have hstops := exists_feed_eq_error_iff.mp ⟨a, hfeed⟩
    rw [← h.next, ← h.text, ← howned] at hstops
    obtain ⟨a', hfeed'⟩ := exists_feed_eq_error_iff.mpr hstops
    rw [hfeed']
    refine .stopped ?_
    rw [Diagnostic.message, Diagnostic.message, (critical_of_feed hfeed).2.2.2,
      (critical_of_feed hfeed').2.2.2, h.next]

end SaysSame

/-! ### What is said of a line -/

/-- **The messages that a line raises**, with the one that stops the reading if it does. -/
def said (options : Options) (s : Session) (line : Text) : List Text :=
  ((reported Session.diagnostics (s.feed options line)).drop s.diagnostics.length).map
    Diagnostic.message

theorem said_eq (options : Options) (s : Session) (line : Text) : s.said options line =
    (raised options s line).map Diagnostic.message ++
      match s.feed options line with
      | .ok _ => []
      | .error a => [a.critical.message] := by
  rw [said, reported_feed, List.drop_left, List.map_append]
  cases s.feed options line <;> rfl

/-- **A line of a section**, in the state after it. -/
def InSection (state : State) : Prop := state.region = .recipe ∧ state.heading ≠ .none

instance (state : State) : Decidable (InSection state) := inferInstanceAs (Decidable (_ ∧ _))

theorem said_of_not_inSection (options : Options) (h : ¬InSection (s.state.next line))
    (hentry : (Text.trim line).head? ≠ some '#') : s.said options line = [] := by
  have hfeed : ∃ t, s.feed options line = .ok t := by
    refine exists_feed_of_not_stopped (fun hcontract => absurd ?_ h) fun _ howned => ?_
    · rw [hcontract]
      exact ⟨rfl, Heading.noConfusion⟩
    · rcases howned with ⟨hregion, hheading⟩ | ⟨-, hhash⟩
      · refine h ⟨hregion, fun hnone => ?_⟩
        simp [hnone] at hheading
      · exact hentry hhash
  have hraised : raised options s line = [] := by
    by_cases hregion : (s.state.next line).region = .recipe
    · have hheading : (s.state.next line).heading = .none := by
        by_contra hne
        exact h ⟨hregion, hne⟩
      rw [raised, if_pos hregion, hheading, if_neg]
      · simp [readSection]
      · intro hcontract
        rw [hcontract] at hheading
        cases hheading
    · exact raised_of_region_ne hregion
  obtain ⟨t, ht⟩ := hfeed
  rw [said_eq, hraised, ht]
  rfl

/-- Where no recipe is under construction a section other than a contract is not read at all. -/
theorem said_of_ownerless (options : Options) (h : InSection (s.state.next line))
    (hheading : (s.state.next line).heading ≠ .contract) (hcurrent : s.current = none) :
    s.said options line = [Problem.noContractYet.message] := by
  have hcontract : s.state.next line ≠ ⟨.recipe, .contract⟩ := fun heq => hheading (by rw [heq])
  have howned : Owned (s.state.next line) line := by
    refine .inl ⟨h.1, ?_⟩
    obtain ⟨hregion, hnone⟩ := h
    revert hnone hheading
    cases (s.state.next line).heading <;> simp
  obtain ⟨a, ha⟩ := exists_feed_eq_error_iff.mpr (.inr ⟨hcurrent, howned⟩)
  have hproblem := (critical_of_feed ha).2.2.2
  rw [if_neg hcontract] at hproblem
  rw [said_eq, raised_of_current_eq_none hcurrent hcontract, ha, List.map_nil, List.nil_append]
  simp only [Diagnostic.message, hproblem]

/-- **What two lines raise that say the same** differs by what was found on the way to the
payload. -/
theorem SaysSame.exists_raised (h : SaysSame s line line') (options : Options)
    (hsection : InSection (s.state.next line))
    (howned : (s.state.next line).heading = .contract ∨ s.current ≠ none) :
    ∃ own, (raised options s line).map Diagnostic.message =
        (Payload.ofLine (Text.dropLineEnd line)).findings.map (fun f => f.problem.message) ++ own ∧
      (raised options s line').map Diagnostic.message =
        (Payload.ofLine (Text.dropLineEnd line')).findings.map (fun f => f.problem.message) ++
          own := by
  have hnext' := h.next
  obtain ⟨hregion, hheading⟩ := hsection
  rcases hnext : s.state.next line with ⟨region, heading⟩
  rw [hnext] at hregion hheading howned hnext'
  obtain rfl : region = .recipe := hregion
  by_cases hcontract : heading = .contract
  · subst hcontract
    rw [raised, raised, if_pos hnext, if_pos hnext', List.map_append, List.map_append,
      map_message_ofFinding, map_message_ofFinding]
    refine ⟨_, rfl, ?_⟩
    -- What a contract finishes is told from the line before it.
    obtain ⟨c, hread, hread'⟩ | ⟨f, f', hread, hread'⟩ := Contract.exists_read h.text
    · rw [hread, hread']
    · rw [hread, hread']
  · obtain ⟨r, hcurrent⟩ := Option.ne_none_iff_exists'.mp (howned.resolve_left hcontract)
    have hread : heading = .purpose ∨ heading = .inOuts ∨ heading = .example := by
      cases heading <;> simp_all
    obtain ⟨own, hown, hown'⟩ := h.exists_problems_readSection options hread r
    refine ⟨own.map Problem.message, ?_, ?_⟩
    · rw [raised_of_section hnext hcontract hcurrent, map_message_ofFinding]
      simpa [Function.comp_def] using congrArg (List.map Problem.message) hown
    · rw [raised_of_section hnext' hcontract hcurrent, map_message_ofFinding]
      simpa [Function.comp_def] using congrArg (List.map Problem.message) hown'

/-- **What is said of two lines that say the same**, also where the reading stops. -/
theorem SaysSame.exists_said (h : SaysSame s line line') (options : Options)
    (hsection : InSection (s.state.next line))
    (howned : (s.state.next line).heading = .contract ∨ s.current ≠ none) :
    ∃ own, s.said options line =
        (Payload.ofLine (Text.dropLineEnd line)).findings.map (fun f => f.problem.message) ++ own ∧
      s.said options line' =
        (Payload.ofLine (Text.dropLineEnd line')).findings.map (fun f => f.problem.message) ++
          own := by
  obtain ⟨own, hown, hown'⟩ := h.exists_raised options hsection howned
  have hresult := h.sameResult_feed options
  rw [said_eq, said_eq, hown, hown']
  generalize s.feed options line = result at hresult
  generalize s.feed options line' = result' at hresult
  cases hresult with
  | read => exact ⟨own, List.append_nil _, List.append_nil _⟩
  | stopped hmessage =>
    refine ⟨_, List.append_assoc _ _ _, ?_⟩
    simp only [hmessage, List.append_assoc]

/-! ### A missing pipe -/

variable {header payload : Text}

/-- The payload is the same with the pipe and without it. -/
theorem exists_payload (hheader : IsHeader heading header) (hpayload : '|' ∉ payload) :
    ∃ text column column' pipe,
      Payload.ofLine (Text.dropLineEnd (pipedLine header payload)) = ⟨text, column, []⟩ ∧
        Payload.ofLine (Text.dropLineEnd (bareLine header payload)) =
          ⟨text, column', [⟨pipe, .missingPipe⟩]⟩ := by
  obtain ⟨column, hpiped⟩ := payload_dropLineEnd_pipedLine hheader payload
  obtain ⟨column', pipe, hbare⟩ := payload_dropLineEnd_bareLine hheader hpayload
  exact ⟨_, column, column', pipe, hpiped, hbare⟩

theorem saysSame_of_isHeader (hheader : IsHeader heading header) (hpayload : '|' ∉ payload)
    (s : Session) : SaysSame s (pipedLine header payload) (bareLine header payload) := by
  obtain ⟨text, column, column', pipe, hpiped, hbare⟩ := exists_payload hheader hpayload
  exact ⟨hheader.next_eq (by decide) (by decide) s.state payload, by rw [hpiped, hbare],
    hheader.head?_ne _, hheader.head?_ne _⟩

/-- **A missing pipe costs a diagnostic and nothing else.** Take a line with a header and a pipe,
and the same line without the pipe. They lead to the same state and have the same result but for the
line that is kept. Where they are contracts, or lines of another section and there is a recipe for
it, the line without the pipe is said to have none, and then what is said of the other one is said
of it too. Where there is no recipe the reading stops at both before it looks for the pipe, and of
lines that are of no section nothing is said. -/
theorem said_bareLine (options : Options) (s : Session) (hheader : IsHeader heading header)
    (hpayload : '|' ∉ payload) :
    let piped := pipedLine header payload
    let bare := bareLine header payload
    s.state.next bare = s.state.next piped ∧
      SameResult piped bare (s.feed options piped) (s.feed options bare) ∧
      (InSection (s.state.next piped) →
        ((s.state.next piped).heading = .contract ∨ s.current ≠ none) →
          s.said options bare = Problem.missingPipe.message :: s.said options piped) ∧
      (InSection (s.state.next piped) → (s.state.next piped).heading ≠ .contract →
        s.current = none → s.said options piped = [Problem.noContractYet.message] ∧
          s.said options bare = [Problem.noContractYet.message]) ∧
      (¬InSection (s.state.next piped) →
        s.said options piped = [] ∧ s.said options bare = []) := by
  intro piped bare
  have hsame : SaysSame s piped bare := saysSame_of_isHeader hheader hpayload s
  refine ⟨hsame.next, hsame.sameResult_feed options, fun hsection howned => ?_,
    fun hsection hheading hcurrent => ⟨?_, ?_⟩, fun hnone => ⟨?_, ?_⟩⟩
  · obtain ⟨text, column, column', pipe, hpiped, hbare⟩ := exists_payload hheader hpayload
    obtain ⟨own, hown, hown'⟩ := hsame.exists_said options hsection howned
    rw [hown, hown', hpiped, hbare]
    rfl
  · exact said_of_ownerless options hsection hheading hcurrent
  · rw [← hsame.next] at hsection hheading
    exact said_of_ownerless options hsection hheading hcurrent
  · exact said_of_not_inSection options hnone hsame.noEntry
  · rw [← hsame.next] at hnone
    exact said_of_not_inSection options hnone hsame.noEntry'

theorem said_bareLine_sample : ∃ s,
    start.feedAll .standard ["\"\"\"", "CONTRACT | f : int -> int"] = .ok s ∧
      IsHeader .example "Example".toList ∧ '|' ∉ "é -> [1 2\n".toList ∧
      InSection (s.state.next (pipedLine "Example" "é -> [1 2\n")) ∧ s.current ≠ none ∧
      s.said .standard (bareLine "Example" "é -> [1 2\n") =
        Problem.missingPipe.message :: s.said .standard (pipedLine "Example" "é -> [1 2\n") ∧
      (s.said .standard (pipedLine "Example" "é -> [1 2\n")).length = 3 := by
  obtain ⟨s, hs, hsection, hcurrent, hlength⟩ : ∃ s,
      start.feedAll .standard ["\"\"\"", "CONTRACT | f : int -> int"] = .ok s ∧
        InSection (s.state.next (pipedLine "Example" "é -> [1 2\n")) ∧ s.current ≠ none ∧
        (s.said .standard (pipedLine "Example" "é -> [1 2\n")).length = 3 :=
    ⟨_, rfl, by decide, Option.some_ne_none _, by decide +kernel⟩
  have hheader : IsHeader .example "Example".toList := ⟨by decide, by decide⟩
  have hpayload : '|' ∉ "é -> [1 2\n".toList := by decide
  exact ⟨s, hs, hheader, hpayload, hsection, hcurrent,
    (said_bareLine .standard s hheader hpayload).2.2.1 hsection (.inr hcurrent), hlength⟩

/-- **A missing pipe is not reported of every line of a section**: without a recipe the reading has
stopped before. -/
theorem not_said_missingPipe : ∃ s, start.feedAll .standard ["\"\"\""] = .ok s ∧
    IsHeader .purpose "PURPOSE".toList ∧ '|' ∉ ['x'] ∧
    InSection (s.state.next (pipedLine "PURPOSE" ['x'])) ∧
    s.said .standard (bareLine "PURPOSE" ['x']) ≠
      Problem.missingPipe.message :: s.said .standard (pipedLine "PURPOSE" ['x']) :=
  ⟨_, rfl, ⟨by decide, by decide⟩, by decide, by decide, by decide +kernel⟩

end Session

end DesignRecipe.Outline

import DesignRecipe.Outline.Session
import DesignRecipe.Proofs.Outline.State

/-!
# What one line does to a reading

A line that has been taken note of comes to one of seven ends (`Session.Outcome`): it
passes, it opens a recipe or fails to, it goes on with a recipe, it is read by a section,
it is an entry of the body outline, or there is no recipe that it could belong to. All
that is proved about runs is proved from these cases, so that no later proof opens the
readers again.
-/

namespace DesignRecipe.Outline

/-! ### What the readers of sections leave alone -/

/-- An example line adds at most one example. -/
theorem ExampleLine.apply_eq (recognized : List Text) (r : Recipe) (payload : Payload) :
    ∃ read : Option Example, (ExampleLine.apply recognized r payload).1 =
      { r with examples := r.examples ++ read.toList } := by
  unfold ExampleLine.apply
  split
  · exact ⟨none, by simp⟩
  · exact ⟨_, rfl⟩

/-- The text of a line as a recipe keeps it: without its line end, and without backticks
if it is a line of the purpose. -/
def kept (heading : Heading) (line : Text) : Text :=
  if heading = .purpose then (Text.dropLineEnd line).filter (· != '`') else Text.dropLineEnd line

/-- **A recipe after a further line of it**: the line is added at the end, and the contract
and the body outline stay as they are. -/
structure Continues (text : Text) (r r' : Recipe) : Prop where
  lines : r'.lines = r.lines ++ [text]
  name : r'.name = r.name
  argTypes : r'.argTypes = r.argTypes
  returnType : r'.returnType = r.returnType
  outline : r'.outline = r.outline

namespace Session

theorem continues_record (text : Text) (r : Recipe) : Continues text r (record text r) :=
  ⟨rfl, rfl, rfl, rfl, rfl⟩

/-- **The reader of a section goes on with the recipe.** -/
theorem continues_readSection (options : Options) (heading : Heading) (line : Text) (r : Recipe) :
    Continues (kept heading line) r
      (readSection options heading (Text.dropLineEnd line) r).1 := by
  cases heading with
  | purpose => exact ⟨rfl, rfl, rfl, rfl, rfl⟩
  | inOuts => exact ⟨rfl, rfl, rfl, rfl, rfl⟩
  | «example» =>
    obtain ⟨read, hread⟩ := ExampleLine.apply_eq options.recognizedTypes r
      (Payload.ofLine (Text.dropLineEnd line))
    constructor <;> simp [readSection, record, kept, hread]
  | none => exact ⟨rfl, rfl, rfl, rfl, rfl⟩
  | contract => exact ⟨rfl, rfl, rfl, rfl, rfl⟩

/-! ### The outcome of a line -/

/-- **The lines that belong to a recipe under construction**, in the state after them: the
lines of a section that is no contract, and the comments of a body outline. -/
def Owned (state : State) (line : Text) : Prop :=
  (state.region = .recipe ∧
      (state.heading = .purpose ∨ state.heading = .inOuts ∨ state.heading = .example)) ∨
    (state.region = .body ∧ (Text.trim line).head? = some '#')

instance (state : State) (line : Text) : Decidable (Owned state line) :=
  inferInstanceAs (Decidable (_ ∨ _))

/-- A contract line opens a recipe and belongs to none before it. -/
theorem Owned.ne_contract {state : State} {line : Text} (h : Owned state line) :
    state ≠ ⟨.recipe, .contract⟩ := by
  rintro rfl
  simp [Owned] at h

/-- The reading after a contract line that has been taken note of. -/
def opened (s : Session) (line : Text) (c : Contract) : Session :=
  { (s.report (Payload.ofLine line).findings).close (max (s.lineCount - 1) 1) s.previousLine with
    current := some (record line c.recipe) }

/-- The reading after a line of a section that has been taken note of. -/
def extended (options : Options) (s : Session) (line : Text) (r : Recipe) : Session :=
  { s.report (readSection options s.state.heading line r).2 with
    current := some (readSection options s.state.heading line r).1 }

/-- The reading after a comment of a body outline that has been taken note of. -/
def outlined (options : Options) (s : Session) (line : Text) (r : Recipe) : Session :=
  { s with
    current := some { r with outline := r.outline ++ [Body.entry options.indentWidth line] } }

/-- **What a line comes to**, once it has been taken note of. -/
inductive Outcome (options : Options) (s : Session) (line : Text) : Except Abort Session → Prop
  /-- The line is none of a recipe and no comment of a body outline. -/
  | passed : s.state.region ≠ .recipe → ¬Owned s.state line → Outcome options s line (.ok s)
  /-- The line opens a recipe. -/
  | opened {c : Contract} : s.state = ⟨.recipe, .contract⟩ →
      Contract.read (Payload.ofLine line) = .ok c → Outcome options s line (.ok (s.opened line c))
  /-- The line should open a recipe and has no arrow in its place. -/
  | arrowless {f : Finding} : s.state = ⟨.recipe, .contract⟩ →
      Contract.read (Payload.ofLine line) = .error f →
      Outcome options s line (.error ((s.report (Payload.ofLine line).findings).abort f))
  /-- The line continues a section. -/
  | continued : s.state = ⟨.recipe, .none⟩ →
      Outcome options s line (.ok { s with current := s.current.map (record line) })
  /-- The line is read by a section. -/
  | extended {r : Recipe} : s.state.region = .recipe → Owned s.state line → s.current = some r →
      Outcome options s line (.ok (s.extended options line r))
  /-- The line is a comment of a body outline. -/
  | outlined {r : Recipe} : s.state.region = .body → Owned s.state line → s.current = some r →
      Outcome options s line (.ok (s.outlined options line r))
  /-- The line belongs to a recipe, and none is under construction. -/
  | ownerless : Owned s.state line → s.current = none →
      Outcome options s line (.error (s.abort ⟨0, .noContractYet⟩))

@[simp] theorem report_nil (s : Session) : s.report [] = s := by simp [report]

/-- A line of a section that is no contract needs a recipe under construction. -/
theorem outcome_change (options : Options) (s : Session) (line : Text)
    (hregion : s.state.region = .recipe) (howned : Owned s.state line) :
    Outcome options s line (s.change (readSection options s.state.heading line)) := by
  cases hcurrent : s.current with
  | none =>
    rw [change, hcurrent]
    exact .ownerless howned hcurrent
  | some r =>
    rw [change, hcurrent]
    exact .extended hregion howned hcurrent

/-- A comment of a body outline needs a recipe under construction. -/
theorem outcome_readBody (options : Options) (s : Session) (line : Text)
    (hregion : s.state.region = .body) : Outcome options s line (s.readBody options line) := by
  by_cases hentry : Body.isEntry line = true
  · have howned : Owned s.state line := Or.inr ⟨hregion, by simpa [Body.isEntry] using hentry⟩
    rw [readBody, if_pos hentry, change]
    cases hcurrent : s.current with
    | none => exact .ownerless howned hcurrent
    | some r =>
      have houtlined : Outcome options s line (.ok (s.outlined options line r)) :=
        .outlined hregion howned hcurrent
      simpa [outlined] using houtlined
  · rw [readBody, if_neg hentry]
    refine .passed (by rw [hregion]; decide) ?_
    rintro (⟨hrecipe, -⟩ | ⟨-, hhash⟩)
    · rw [hregion] at hrecipe
      exact absurd hrecipe (by decide)
    · exact hentry (by simpa [Body.isEntry] using hhash)

/-- **Every line comes to one of these ends.** -/
theorem outcome_dispatch (options : Options) (s : Session) (line : Text) :
    Outcome options s line (s.dispatch options line) := by
  rcases hstate : s.state with ⟨region, heading⟩
  cases region with
  | recipe =>
    cases heading with
    | contract =>
      simp only [dispatch, hstate, readContract]
      cases hread : Contract.read (Payload.ofLine line) with
      | error f => exact .arrowless hstate hread
      | ok c => exact .opened hstate hread
    | none =>
      have hcontinued :
          Outcome options s line (.ok { s with current := s.current.map (record line) }) :=
        .continued hstate
      simpa only [dispatch, hstate] using hcontinued
    | purpose =>
      have := outcome_change options s line (by rw [hstate])
        (Or.inl (by simp [hstate]))
      simpa only [dispatch, hstate] using this
    | inOuts =>
      have := outcome_change options s line (by rw [hstate])
        (Or.inl (by simp [hstate]))
      simpa only [dispatch, hstate] using this
    | «example» =>
      have := outcome_change options s line (by rw [hstate])
        (Or.inl (by simp [hstate]))
      simpa only [dispatch, hstate] using this
  | body =>
    have := outcome_readBody options s line (by rw [hstate])
    simpa only [dispatch, hstate] using this
  | outside =>
    simp only [dispatch, hstate]
    exact .passed (by simp [hstate]) (by simp [Owned, hstate])
  | block =>
    simp only [dispatch, hstate]
    exact .passed (by simp [hstate]) (by simp [Owned, hstate])

theorem outcome_feed (options : Options) (s : Session) (line : Text) :
    Outcome options (s.advance (Text.dropLineEnd line)) (Text.dropLineEnd line)
      (s.feed options line) :=
  outcome_dispatch options _ _

@[simp] theorem owned_dropLineEnd {state : State} {line : Text} :
    Owned state (Text.dropLineEnd line) ↔ Owned state line := by
  simp [Owned]

/-! ### Taking note of a line and finishing a recipe -/

@[simp] theorem state_advance (s : Session) (line : Text) :
    (s.advance line).state = s.state.next line := rfl

theorem state_advance_dropLineEnd (s : Session) (line : Text) :
    (s.advance (Text.dropLineEnd line)).state = s.state.next line :=
  State.next_dropLineEnd s.state line

@[simp] theorem current_advance (s : Session) (line : Text) :
    (s.advance line).current = s.current := rfl

@[simp] theorem finished_advance (s : Session) (line : Text) :
    (s.advance line).finished = s.finished := rfl

@[simp] theorem diagnostics_advance (s : Session) (line : Text) :
    (s.advance line).diagnostics = s.diagnostics := rfl

@[simp] theorem lineCount_advance (s : Session) (line : Text) :
    (s.advance line).lineCount = s.lineCount + 1 := rfl

@[simp] theorem line_advance (s : Session) (line : Text) : (s.advance line).line = line := rfl

@[simp] theorem previousLine_advance (s : Session) (line : Text) :
    (s.advance line).previousLine = s.line := rfl

@[simp] theorem current_close (s : Session) (line : Nat) (source : Text) :
    (s.close line source).current = none := by
  unfold close
  split
  · assumption
  · rfl

@[simp] theorem finished_close (s : Session) (line : Nat) (source : Text) :
    (s.close line source).finished = s.finished ++ s.current.toList := by
  unfold close
  split <;> simp [*]

@[simp] theorem diagnostics_close (s : Session) (line : Nat) (source : Text) :
    (s.close line source).diagnostics =
      s.diagnostics ++ s.current.toList.flatMap (completeness · line source) := by
  unfold close
  split <;> simp [*]

/-- Finishing a recipe leaves alone what is known of the lines. -/
theorem close_eq (s : Session) (line : Nat) (source : Text) :
    (s.close line source).lineCount = s.lineCount ∧ (s.close line source).line = s.line ∧
      (s.close line source).previousLine = s.previousLine ∧
      (s.close line source).state = s.state := by
  unfold close
  split <;> exact ⟨rfl, rfl, rfl, rfl⟩

/-! ### What every line does -/

/-- **What a reading notes of every line** that it accepts, whatever the line is. -/
structure Notes (s : Session) (text : Text) (t : Session) : Prop where
  lineCount : t.lineCount = s.lineCount + 1
  line : t.line = Text.dropLineEnd text
  previousLine : t.previousLine = s.line
  state : t.state = s.state.next text

section Fed

variable {options : Options} {s t : Session} {line : Text}

/-- The reading keeps count of the lines, and moves the state by the line alone. -/
theorem notes_of_feed (h : s.feed options line = .ok t) : Notes s line t := by
  have ho := outcome_feed options s line
  rw [h] at ho
  have hstate := State.next_dropLineEnd s.state line
  cases ho with
  | passed => exact ⟨rfl, rfl, rfl, hstate⟩
  | opened =>
    obtain ⟨hcount, hline, hprevious, hclosed⟩ := close_eq
      ((s.advance (Text.dropLineEnd line)).report (Payload.ofLine (Text.dropLineEnd line)).findings)
      (max (s.lineCount + 1 - 1) 1) s.line
    exact ⟨hcount, hline, hprevious, hclosed.trans hstate⟩
  | continued => exact ⟨rfl, rfl, rfl, hstate⟩
  | extended => exact ⟨rfl, rfl, rfl, hstate⟩
  | outlined => exact ⟨rfl, rfl, rfl, hstate⟩

/-- **A recipe is finished by the contract line of the next one** and by no other line. -/
theorem finished_of_feed (h : s.feed options line = .ok t) :
    t.finished =
      s.finished ++ if s.state.next line = ⟨.recipe, .contract⟩ then s.current.toList else [] := by
  have ho := outcome_feed options s line
  rw [h] at ho
  cases ho with
  | passed hregion =>
    rw [state_advance_dropLineEnd] at hregion
    simp [State.ne_contract_of_region hregion]
  | opened hstate =>
    rw [state_advance_dropLineEnd] at hstate
    simp [opened, hstate, report]
  | continued hstate =>
    rw [state_advance_dropLineEnd] at hstate
    simp [hstate]
  | extended _ howned =>
    rw [state_advance_dropLineEnd] at howned
    simp [extended, report, howned.ne_contract]
  | outlined _ howned =>
    rw [state_advance_dropLineEnd] at howned
    simp [outlined, howned.ne_contract]

/-- **What an accepted line does to the recipe under construction**, in terms of the line
and of the state after it. -/
inductive Turn (options : Options) (s : Session) (line : Text) (t : Session) : Prop
  /-- The line is none of a recipe and no comment of a body outline. -/
  | idle : (s.state.next line).region ≠ .recipe → ¬Owned (s.state.next line) line →
      t.current = s.current → Turn options s line t
  /-- The line opens a recipe. -/
  | opens {c : Contract} : s.state.next line = ⟨.recipe, .contract⟩ →
      Contract.read (Payload.ofLine (Text.dropLineEnd line)) = .ok c →
      t.current = some (record (Text.dropLineEnd line) c.recipe) → Turn options s line t
  /-- The line continues a section of no recipe at all. -/
  | lost : s.state.next line = ⟨.recipe, .none⟩ → s.current = none → t.current = none →
      Turn options s line t
  /-- The line is added to the recipe. -/
  | grows {r r' : Recipe} : (s.state.next line).region = .recipe →
      s.state.next line ≠ ⟨.recipe, .contract⟩ → s.current = some r → t.current = some r' →
      Continues (kept (s.state.next line).heading line) r r' → Turn options s line t
  /-- The line is added to the body outline of the recipe. -/
  | outlines {r : Recipe} : (s.state.next line).region = .body → Owned (s.state.next line) line →
      s.current = some r →
      t.current = some { r with
        outline := r.outline ++ [Body.entry options.indentWidth (Text.dropLineEnd line)] } →
      Turn options s line t

/-- **Every accepted line takes one of these turns.** -/
theorem turn_of_feed (h : s.feed options line = .ok t) : Turn options s line t := by
  have ho := outcome_feed options s line
  rw [h] at ho
  have hnext := state_advance_dropLineEnd s line
  cases ho with
  | passed hregion howned =>
    rw [hnext] at hregion howned
    exact .idle hregion (fun hc => howned (owned_dropLineEnd.mpr hc)) rfl
  | opened hstate hread =>
    rw [hnext] at hstate
    exact .opens hstate hread rfl
  | continued hstate =>
    rw [hnext] at hstate
    cases hcurrent : s.current with
    | none => exact .lost hstate hcurrent (by simp [hcurrent])
    | some r =>
      have hcontinues : Continues (kept (s.state.next line).heading line) r
          (record (Text.dropLineEnd line) r) := by
        simpa [hstate, kept] using continues_record (Text.dropLineEnd line) r
      exact .grows (by rw [hstate]) (by rw [hstate]; decide) hcurrent (by simp [hcurrent])
        hcontinues
  | extended hregion howned hcurrent =>
    rw [hnext] at hregion howned
    refine .grows hregion howned.ne_contract hcurrent rfl ?_
    rw [← hnext]
    exact continues_readSection options _ line _
  | outlined hregion howned hcurrent =>
    rw [hnext] at hregion howned
    exact .outlines hregion (owned_dropLineEnd.mp howned) hcurrent rfl

/-- **The recipe under construction after an accepted line**, by the state after the line, its
text and the recipe before it. -/
def currentAfter (options : Options) (state : State) (text : Text) (current : Option Recipe) :
    Option Recipe :=
  if state = ⟨.recipe, .contract⟩ then
    match Contract.read (Payload.ofLine text) with
    | .ok c => some (record text c.recipe)
    | .error _ => none
  else
    match state.region with
    | .recipe => current.map fun r => (readSection options state.heading text r).1
    | .body =>
      if Body.isEntry text then
        current.map fun r =>
          { r with outline := r.outline ++ [Body.entry options.indentWidth text] }
      else current
    | _ => current

/-- A line of a section that is no contract goes on with the recipe. -/
theorem currentAfter_of_section {heading : Heading} (hheading : heading ≠ .contract) (text : Text)
    (current : Option Recipe) : currentAfter options ⟨.recipe, heading⟩ text current =
      current.map fun r => (readSection options heading text r).1 := by
  rw [currentAfter, if_neg (by simpa using hheading)]

/-- A line that belongs to no recipe leaves the one under construction alone. -/
theorem currentAfter_of_not_owned {state : State} {text : Text} (current : Option Recipe)
    (hregion : state.region ≠ .recipe) (howned : ¬Owned state text) :
    currentAfter options state text current = current := by
  rw [currentAfter, if_neg (State.ne_contract_of_region hregion)]
  split
  · next h => exact absurd h hregion
  · next h =>
    rw [if_neg]
    exact fun hentry => howned (Or.inr ⟨h, by simpa [Body.isEntry] using hentry⟩)
  · rfl

/-- **What every kind of line keeps** holds of the recipe under construction after any line: a
contract starts a recipe anew, and a section or a comment of a body outline goes on with it. -/
theorem forall_currentAfter {P : Recipe → Prop} {state : State} {text : Text}
    {current : Option Recipe}
    (hopens : ∀ c, Contract.read (Payload.ofLine text) = .ok c → P (record text c.recipe))
    (hsection : ∀ heading r, P r → P (readSection options heading text r).1)
    (hentry : Body.isEntry text = true → ∀ r, P r →
      P { r with outline := r.outline ++ [Body.entry options.indentWidth text] })
    (h : ∀ r ∈ current, P r) : ∀ r ∈ currentAfter options state text current, P r := by
  intro r hr
  rw [currentAfter] at hr
  split at hr
  · split at hr
    · next hread =>
      obtain rfl := Option.some_inj.mp hr
      exact hopens _ hread
    · exact absurd hr (by simp)
  · split at hr
    · obtain ⟨r', hr', rfl⟩ := Option.map_eq_some_iff.mp hr
      exact hsection _ r' (h r' hr')
    · split at hr
      · next hhash =>
        obtain ⟨r', hr', rfl⟩ := Option.map_eq_some_iff.mp hr
        exact hentry hhash r' (h r' hr')
      · exact h r hr
    · exact h r hr

/-- **Nothing else counts for the recipe under construction**: not the number of the line, nor
the lines and recipes before it. -/
theorem current_of_feed (h : s.feed options line = .ok t) :
    t.current =
      currentAfter options (s.state.next line) (Text.dropLineEnd line) s.current := by
  have ho := outcome_feed options s line
  rw [h] at ho
  have hnext := state_advance_dropLineEnd s line
  cases ho with
  | passed hregion howned =>
    rw [hnext] at hregion howned
    exact (currentAfter_of_not_owned s.current hregion howned).symm
  | opened hstate hread =>
    rw [hnext] at hstate
    simp [currentAfter, hstate, hread, opened]
  | continued hstate =>
    rw [hnext] at hstate
    simp [currentAfter, hstate, readSection]
  | extended hregion howned hcurrent =>
    rw [hnext] at hregion howned
    rw [current_advance] at hcurrent
    simp [currentAfter, howned.ne_contract, hregion, hcurrent, extended]
  | outlined hregion howned hcurrent =>
    rw [hnext] at hregion howned
    have hentry : Body.isEntry (Text.dropLineEnd line) = true := by
      simpa [Owned, hregion, Body.isEntry] using howned
    rw [current_advance] at hcurrent
    simp [currentAfter, howned.ne_contract, hregion, hentry, hcurrent, outlined]

end Fed

end Session

end DesignRecipe.Outline

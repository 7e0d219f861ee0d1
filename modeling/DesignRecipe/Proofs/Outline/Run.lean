import DesignRecipe.Proofs.Outline.Line

/-!
# Runs of a reading

A reading that has accepted some lines is in a state that the lines alone determine, and
the state knows whether a recipe is under construction: inside a recipe or a body outline
there always is one. For a recipe starts with a section header, and a header that is no
contract is refused as long as there is no recipe; a body outline starts with a comment,
which is refused likewise.

So what a run keeps is shown in two steps: for one line from its `Session.Turn`, and for
all lines by `Session.feedAll_induction`.
-/

namespace DesignRecipe.Outline.Session

variable {options : Options} {s t : Session} {lines more : List Text} {line : Text}

/-! ### Composition -/

/-- Lines that follow accepted ones are read by the reading that has accepted those, and
lines that follow a line that stops the reading are not read. -/
theorem feedAll_append (options : Options) (s : Session) (lines more : List Text) :
    s.feedAll options (lines ++ more) =
      match s.feedAll options lines with
      | .ok t => t.feedAll options more
      | .error a => .error a := by
  induction lines generalizing s with
  | nil => rfl
  | cons line lines ih =>
    rw [List.cons_append, feedAll, feedAll]
    cases s.feed options line with
    | error a => rfl
    | ok u => exact ih u

theorem feedAll_cons_eq_ok : s.feedAll options (line :: lines) = .ok t ↔
    ∃ u, s.feed options line = .ok u ∧ u.feedAll options lines = .ok t := by
  rw [feedAll]
  cases s.feed options line with
  | error a => simp
  | ok u => simp

theorem feedAll_append_eq_ok : s.feedAll options (lines ++ more) = .ok t ↔
    ∃ u, s.feedAll options lines = .ok u ∧ u.feedAll options more = .ok t := by
  rw [feedAll_append]
  cases s.feedAll options lines with
  | error a => simp
  | ok u => simp

theorem feedAll_concat_eq_ok : s.feedAll options (lines ++ [line]) = .ok t ↔
    ∃ u, s.feedAll options lines = .ok u ∧ u.feed options line = .ok t := by
  rw [feedAll_append_eq_ok]
  refine exists_congr fun u => and_congr_right fun _ => ?_
  rw [feedAll]
  cases u.feed options line with
  | error a => exact Iff.rfl
  | ok v => exact Iff.rfl

/-- **What every accepted line keeps holds of every run.** The step may use that the lines
before it have been accepted. -/
theorem feedAll_induction {P : List Text → Session → Prop} (hstart : P [] start)
    (hstep : ∀ {lines line s t}, start.feedAll options lines = .ok s → P lines s →
      s.feed options line = .ok t → P (lines ++ [line]) t)
    (h : start.feedAll options lines = .ok s) : P lines s := by
  -- A run is taken apart at its end, where the line is that was fed last.
  induction lines using List.reverseRecOn generalizing s with
  | nil =>
    rw [feedAll, Except.ok.injEq] at h
    exact h ▸ hstart
  | append_singleton lines line ih =>
    obtain ⟨u, hu, hfeed⟩ := feedAll_concat_eq_ok.mp h
    exact hstep hu (ih hu) hfeed

/-! ### What the lines alone determine -/

/-- **The state after a run is that of the machine on its lines.** -/
theorem state_of_feedAll (h : start.feedAll options lines = .ok s) :
    s.state = State.after lines := by
  refine feedAll_induction (P := fun lines s => s.state = State.after lines) rfl ?_ h
  intro lines line s t _ ih hfeed
  rw [(notes_of_feed hfeed).state, ih, State.after_concat]

/-- The lines are counted. -/
theorem lineCount_of_feedAll (h : start.feedAll options lines = .ok s) :
    s.lineCount = lines.length := by
  refine feedAll_induction (P := fun lines s => s.lineCount = lines.length) rfl ?_ h
  intro lines line s t _ ih hfeed
  rw [(notes_of_feed hfeed).lineCount, ih, List.length_append, List.length_singleton]

/-- The reading knows the last line. -/
theorem line_of_feedAll (h : start.feedAll options lines = .ok s) :
    s.line = Text.dropLineEnd (lines.getLast?.getD []) := by
  refine feedAll_induction (P := fun lines s => s.line = Text.dropLineEnd (lines.getLast?.getD []))
    rfl ?_ h
  intro lines line s t _ _ hfeed
  rw [(notes_of_feed hfeed).line, List.getLast?_concat]
  rfl

/-! ### The recipe under construction -/

/-- **Inside a recipe or a body outline a recipe is under construction.** -/
theorem exists_current_of_feedAll (h : start.feedAll options lines = .ok s) :
    s.state.region = .recipe ∨ s.state.region = .body → ∃ r, s.current = some r := by
  refine feedAll_induction
    (P := fun _ s => s.state.region = .recipe ∨ s.state.region = .body → ∃ r, s.current = some r)
    (fun h => absurd h (by decide)) ?_ h
  intro lines line s t _ ih hfeed hregion
  rw [(notes_of_feed hfeed).state] at hregion
  cases turn_of_feed hfeed with
  | idle hrecipe howned hcurrent =>
    -- Only a comment enters a body outline, so the reading was inside one before.
    have hbody := hregion.resolve_left hrecipe
    rw [hcurrent]
    rcases State.region_of_next_body hbody with hbefore | hhash
    · exact ih (Or.inr hbefore)
    · exact absurd (Or.inr ⟨hbody, hhash⟩) howned
  | opens _ _ hcurrent => exact ⟨_, hcurrent⟩
  | lost hstate hnone _ =>
    obtain ⟨r, hr⟩ := ih (Or.inl (State.region_of_next_continued hstate))
    rw [hr] at hnone
    exact absurd hnone (by simp)
  | grows _ _ _ hcurrent _ => exact ⟨_, hcurrent⟩
  | outlines _ _ _ hcurrent => exact ⟨_, hcurrent⟩

/-- A line that is accepted inside a recipe is kept as the last line of a recipe. -/
theorem getLast?_lines_of_feed (hs : start.feedAll options lines = .ok s)
    (hfeed : s.feed options line = .ok t) (hregion : t.state.region = .recipe) :
    ∃ r, t.current = some r ∧ r.lines.getLast? = some (kept t.state.heading line) := by
  rw [(notes_of_feed hfeed).state] at hregion ⊢
  cases turn_of_feed hfeed with
  | idle hrecipe => exact absurd hregion hrecipe
  | opens hstate _ hcurrent => exact ⟨_, hcurrent, by simp [record, Contract.recipe,
      Recipe.ofContract, hstate, kept]⟩
  | lost hstate hnone _ =>
    obtain ⟨r, hr⟩ :=
      exists_current_of_feedAll hs (Or.inl (State.region_of_next_continued hstate))
    rw [hr] at hnone
    exact absurd hnone (by simp)
  | grows _ _ _ hcurrent hcontinues => exact ⟨_, hcurrent, by simp [hcontinues.lines]⟩
  | outlines hbody => rw [hbody] at hregion; exact absurd hregion (by decide)

/-- A comment that is accepted inside a body outline is its last entry. -/
theorem getLast?_outline_of_feed (hfeed : s.feed options line = .ok t)
    (hregion : t.state.region = .body) (hhash : (Text.trim line).head? = some '#') :
    ∃ r, t.current = some r ∧
      r.outline.getLast? = some (Body.entry options.indentWidth (Text.dropLineEnd line)) := by
  rw [(notes_of_feed hfeed).state] at hregion
  cases turn_of_feed hfeed with
  | idle _ howned => exact absurd (Or.inr ⟨hregion, hhash⟩) howned
  | opens hstate => rw [hstate] at hregion; exact absurd hregion (by decide)
  | lost hstate => rw [hstate] at hregion; exact absurd hregion (by decide)
  | grows hrecipe => rw [hrecipe] at hregion; exact absurd hregion (by decide)
  | outlines _ _ _ hcurrent => exact ⟨_, hcurrent, by simp⟩

/-- **The state invariant of accepted lines.** The reading is inside a block exactly after
an odd number of delimiters, right after a delimiter it is in no section, and only a
recipe has sections. Inside a recipe or a body outline a recipe is under construction, so
that the last line read has been kept in it, or has become an entry of its outline. -/
theorem state_invariant (options : Options) (lines : List Text) (s : Session)
    (h : start.feedAll options lines = .ok s) :
    ((s.state.region = .block ∨ s.state.region = .recipe) ↔
        Odd (lines.countP State.delimits)) ∧
      (∀ line ∈ lines.getLast?, State.delimits line = true →
        s.state = ⟨.outside, .none⟩ ∨ s.state = ⟨.block, .none⟩) ∧
      (s.state.heading ≠ .none → s.state.region = .recipe) ∧
      (s.state.region = .recipe ∨ s.state.region = .body → ∃ r, s.current = some r) ∧
      ∀ line ∈ lines.getLast?,
        (s.state.region = .recipe →
          ∃ r, s.current = some r ∧ r.lines.getLast? = some (kept s.state.heading line)) ∧
        (s.state.region = .body → (Text.trim line).head? = some '#' →
          ∃ r, s.current = some r ∧
            r.outline.getLast? =
              some (Body.entry options.indentWidth (Text.dropLineEnd line))) := by
  have hstate := state_of_feedAll h
  refine ⟨?_, ?_, ?_, exists_current_of_feedAll h, ?_⟩
  · rw [hstate, ← State.inBlock_after lines, State.inBlock, decide_eq_true_iff]
  · intro line hline hdelimits
    obtain ⟨front, rfl⟩ := List.getLast?_eq_some_iff.mp hline
    rw [hstate, State.after_concat, State.next_of_delimits hdelimits]
    split
    · exact Or.inl rfl
    · exact Or.inr rfl
  · rw [hstate]
    exact State.sectioned_after lines
  · intro line hline
    obtain ⟨front, rfl⟩ := List.getLast?_eq_some_iff.mp hline
    obtain ⟨u, hu, hfeed⟩ := feedAll_concat_eq_ok.mp h
    exact ⟨getLast?_lines_of_feed hu hfeed, getLast?_outline_of_feed hfeed⟩

/-- An outline of two functions. -/
def sample : List Text :=
  ["\"\"\"", "CONTRACT | double : int -> int", "PURPOSE  | Doubles `n`.", "  even if negative\r\n",
    "\"\"\"", "# add it to itself", "\"\"\"", "CONTRACT | one : None -> int", "\"\"\"",
    "  # return it"]

theorem state_invariant_sample : ∃ s, start.feedAll .standard sample = .ok s ∧
    s.state.region = .body ∧
    ((s.state.region = .block ∨ s.state.region = .recipe) ↔ Odd (sample.countP State.delimits)) ∧
    ∃ r, s.current = some r ∧
      r.outline.getLast? = some (Body.entry Options.standard.indentWidth "  # return it") := by
  obtain ⟨s, hs⟩ : ∃ s, start.feedAll .standard sample = .ok s := ⟨_, rfl⟩
  obtain ⟨hparity, _, _, _, hlast⟩ := state_invariant .standard sample s hs
  have hregion : s.state.region = .body := by
    rw [state_of_feedAll hs]
    decide
  exact ⟨s, hs, hregion, hparity, (hlast _ rfl).2 hregion (by decide)⟩

end DesignRecipe.Outline.Session

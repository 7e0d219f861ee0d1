import DesignRecipe.Proofs.Outline.Run

/-!
# The diagnostics of a reading

What a line is reported for is a matter of the line and of the reading before it
(`Session.raised`): a line of a section has its findings, and a contract line has those of
its header and then what the recipe lacks that it finishes. A line that stops the reading
has raised its findings all the same.

So the diagnostics of a run are those of its lines one after the other, whether or not the
run comes to its end (`Session.diagnosed_feedAll`). All of them are ignorable: the one
diagnostic that is not stops the reading, and is not among them.
-/

namespace DesignRecipe.Outline.Session

/-- **The diagnostics that a line raises.** What a contract line finishes is reported at the
line before it, and only if the line does open a recipe. -/
def raised (options : Options) (s : Session) (line : Text) : List Diagnostic :=
  let text := Text.dropLineEnd line
  let here := List.map (Diagnostic.ofFinding .ignorable (s.lineCount + 1) text)
  if s.state.next line = ⟨.recipe, .contract⟩ then
    here (Payload.ofLine text).findings ++
      match Contract.read (Payload.ofLine text) with
      | .ok _ => s.current.toList.flatMap (completeness · (max s.lineCount 1) s.line)
      | .error _ => []
  else if (s.state.next line).region = .recipe then
    s.current.toList.flatMap fun r =>
      here (readSection options (s.state.next line).heading text r).2
  else []

/-- **The diagnostics that lines raise**, up to the first line that stops the reading. -/
def raisedOver (options : Options) : Session → List Text → List Diagnostic
  | _, [] => []
  | s, line :: rest =>
    raised options s line ++
      match s.feed options line with
      | .ok t => raisedOver options t rest
      | .error _ => []

/-- The diagnostics known after a reading that may have been stopped, without the one that
has stopped it. -/
def diagnosed : Except Abort Session → List Diagnostic
  | .ok s => s.diagnostics
  | .error a => a.earlier

variable {options : Options} {s t u : Session} {lines : List Text} {line : Text} {a : Abort}

/-! ### One line -/

theorem raised_of_region_ne (h : (s.state.next line).region ≠ .recipe) :
    raised options s line = [] := by
  rw [raised, if_neg (State.ne_contract_of_region h), if_neg h]

theorem raised_of_current_eq_none (hcurrent : s.current = none)
    (h : s.state.next line ≠ ⟨.recipe, .contract⟩) : raised options s line = [] := by
  rw [raised, if_neg h, hcurrent]
  split <;> rfl

/-- **A line of a section that is no contract raises its findings.** -/
theorem raised_of_section {heading : Heading} {r : Recipe}
    (hstate : s.state.next line = ⟨.recipe, heading⟩) (hheading : heading ≠ .contract)
    (hcurrent : s.current = some r) :
    raised options s line = (readSection options heading (Text.dropLineEnd line) r).2.map
      (Diagnostic.ofFinding .ignorable (s.lineCount + 1) (Text.dropLineEnd line)) := by
  rw [raised, hstate, hcurrent, if_neg (by simpa using hheading), if_pos rfl]
  simp

/-- **A line adds what it raises to the diagnostics**, also if it stops the reading. -/
theorem diagnosed_feed (options : Options) (s : Session) (line : Text) :
    diagnosed (s.feed options line) = s.diagnostics ++ raised options s line := by
  have ho := outcome_feed options s line
  have hnext := state_advance_dropLineEnd s line
  generalize s.feed options line = e at ho
  cases ho with
  | passed hregion =>
    rw [hnext] at hregion
    rw [raised_of_region_ne hregion, List.append_nil]
    rfl
  | opened hstate hread =>
    rw [hnext] at hstate
    simp [diagnosed, opened, raised, hstate, hread, report]
  | arrowless hstate hread =>
    rw [hnext] at hstate
    -- The header has been reported before the arrow is missed.
    simp [diagnosed, abort, raised, hstate, hread, report]
  | continued hstate =>
    rw [hnext] at hstate
    simp [diagnosed, raised, hstate, readSection]
  | extended hregion howned hcurrent =>
    rw [current_advance] at hcurrent
    rw [hnext] at hregion howned
    simp [diagnosed, extended, raised, howned.ne_contract, hregion, hcurrent, report]
  | outlined hregion =>
    rw [hnext] at hregion
    rw [raised_of_region_ne (by rw [hregion]; decide), List.append_nil]
    rfl
  | ownerless howned hcurrent =>
    rw [current_advance] at hcurrent
    rw [hnext] at howned
    rw [raised_of_current_eq_none hcurrent howned.ne_contract, List.append_nil]
    rfl

theorem diagnostics_of_feed (h : s.feed options line = .ok t) :
    t.diagnostics = s.diagnostics ++ raised options s line := by
  have hline := diagnosed_feed options s line
  rwa [h] at hline

/-- What a line raises is ignorable. -/
theorem severity_of_mem_raised {d : Diagnostic} (h : d ∈ raised options s line) :
    d.severity = .ignorable := by
  rw [raised] at h
  split at h
  · rcases List.mem_append.mp h with hhere | hlacks
    · obtain ⟨f, -, rfl⟩ := List.mem_map.mp hhere
      rfl
    · split at hlacks
      · obtain ⟨r, -, hd⟩ := List.mem_flatMap.mp hlacks
        rw [completeness] at hd
        split at hd
        · exact absurd hd (by simp)
        · rw [List.mem_singleton.mp hd]
          rfl
      · exact absurd hlacks (by simp)
  · split at h
    · obtain ⟨r, -, hd⟩ := List.mem_flatMap.mp h
      obtain ⟨f, -, rfl⟩ := List.mem_map.mp hd
      rfl
    · exact absurd h (by simp)

/-! ### Runs -/

/-- **The diagnostics of a run are those of its lines**, in order. -/
theorem diagnosed_feedAll (options : Options) (s : Session) (lines : List Text) :
    diagnosed (s.feedAll options lines) = s.diagnostics ++ raisedOver options s lines := by
  induction lines generalizing s with
  | nil => simp [feedAll, raisedOver, diagnosed]
  | cons line lines ih =>
    have hline := diagnosed_feed options s line
    rw [feedAll, raisedOver]
    cases hfeed : s.feed options line with
    | error a =>
      rw [hfeed] at hline
      rw [List.append_nil]
      exact hline
    | ok t =>
      rw [hfeed] at hline
      rw [← List.append_assoc, ← hline]
      exact ih t

theorem severity_of_mem_raisedOver {d : Diagnostic} (h : d ∈ raisedOver options s lines) :
    d.severity = .ignorable := by
  induction lines generalizing s with
  | nil => exact absurd h (by simp [raisedOver])
  | cons line lines ih =>
    rw [raisedOver] at h
    rcases List.mem_append.mp h with hline | hrest
    · exact severity_of_mem_raised hline
    · split at hrest
      · exact ih hrest
      · exact absurd hrest (by simp)

end DesignRecipe.Outline.Session

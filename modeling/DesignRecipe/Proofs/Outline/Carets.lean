import DesignRecipe.Proofs.Outline.Placement

/-!
# Diagnostics point at what they name

A diagnostic whose message names a token or a bracket points at it: the character of the line at
its column is the first one of what is named. A contract without its arrow is pointed at where its
second-to-last word starts, which is where the arrow should be. Columns count characters, so it
does not matter how wide the characters are that the column has been carried over, nor how many
blanks there are, nor whether there is a pipe.

All of this is known of the findings of a line (`Finding.PointsInto`). A reading turns them into
diagnostics, and adds only what a recipe lacks that has ended, which names nothing of a line.
-/

namespace DesignRecipe

/-- **A diagnostic that points at what it names in a line.** It repeats the line, unless it tells
what a recipe lacks. Where its message starts with words that name something of the line, what comes
behind them starts at the column. The arrow of a contract is missed at the second-to-last word. -/
structure Diagnostic.PointsOut (line : Text) (d : Diagnostic) : Prop where
  source : d.source = Text.dropLineEnd line ∨ ∃ name gaps, d.problem = .incomplete name gaps
  named : ∀ opening ∈ Problem.openings, opening <+: d.message →
    ∃ t c, d.problem.named? = some t ∧ opening ++ t <+: d.message ∧
      (Text.dropLineEnd line)[d.column]? = some c ∧ t.head? = some c
  arrow : d.problem = .contractWithoutArrow → ∀ last word before,
    (Outline.Contract.wordsOf (Outline.Payload.ofLine (Text.dropLineEnd line)).text).reverse =
      last :: word :: before →
    ∃ c, (Text.dropLineEnd line)[d.column]? = some c ∧ word.text.head? = some c

/-- What is found in a line is pointed out in it. -/
theorem Diagnostic.PointsOut.ofFinding {line : Text} {f : Finding} (severity : Severity)
    (number : Nat) (h : f.PointsInto (Text.dropLineEnd line)) :
    (Diagnostic.ofFinding severity number (Text.dropLineEnd line) f).PointsOut line where
  source := .inl (Text.dropLineEnd_dropLineEnd line)
  named opening hopening hmessage := by
    obtain ⟨t, ht, hbehind, c, hc, hhead, -⟩ := h.pointsAt opening hopening hmessage
    exact ⟨t, c, ht, hbehind, hc, hhead⟩
  arrow harrow last word before hwords := by
    obtain ⟨c, hc, hhead, -⟩ := h.arrow harrow last word before hwords
    exact ⟨c, hc, hhead⟩

/-- What a recipe lacks names nothing of a line. -/
theorem Diagnostic.PointsOut.incomplete {d : Diagnostic} {name : Text} {gaps : List Gap}
    (h : d.problem = .incomplete name gaps) (line : Text) : d.PointsOut line where
  source := .inr ⟨name, gaps, h⟩
  named opening hopening hmessage := by
    have hsilent : Finding.PointsInto line ⟨0, d.problem⟩ :=
      .of_isSilent (h ▸ rfl) (Nat.zero_le _)
    obtain ⟨t, ht, -⟩ := hsilent.pointsAt opening hopening hmessage
    rw [h] at ht
    cases ht
  arrow harrow := by
    rw [h] at harrow
    cases harrow

namespace Outline.Session

variable {options : Options} {s : Session} {line : Text} {d : Diagnostic}

/-- What a line raises is pointed out in it. -/
theorem pointsOut_of_mem_raised (hd : d ∈ raised options s line) : d.PointsOut line := by
  rw [raised] at hd
  split at hd
  · rcases List.mem_append.mp hd with hhere | hlacks
    · obtain ⟨f, hf, rfl⟩ := List.mem_map.mp hhere
      exact .ofFinding _ _ ((Payload.standsIn_ofLine _).findings f hf)
    · split at hlacks
      · obtain ⟨r, -, hd⟩ := List.mem_flatMap.mp hlacks
        rw [eq_of_mem_completeness hd]
        exact .incomplete rfl line
      · cases hlacks
  · split at hd
    · obtain ⟨r, -, hd⟩ := List.mem_flatMap.mp hd
      obtain ⟨f, hf, rfl⟩ := List.mem_map.mp hd
      exact .ofFinding _ _ (pointsInto_of_readSection _ _ _ r f hf)
    · cases hd

/-- The diagnostic that stops the reading is pointed out in the line where it stops. -/
theorem pointsOut_critical {a : Abort} (h : s.feed options line = .error a) :
    a.critical.PointsOut line := by
  have ho := outcome_feed options s line
  rw [h] at ho
  cases ho with
  | arrowless _ hread => exact .ofFinding _ _ (Contract.pointsInto_of_read hread)
  | ownerless => exact .ofFinding _ _ (.of_isSilent rfl (Nat.zero_le _))

/-- **Carets point at the thing they name.** In any state of the reading and for any line: whatever
is raised while the line is read, also if the reading stops there, points at what it names. -/
theorem pointsOut_of_reported_feed (options : Options) (s : Session) (line : Text) :
    ∃ new, reported Session.diagnostics (s.feed options line) = s.diagnostics ++ new ∧
      ∀ d ∈ new, d.PointsOut line := by
  refine ⟨_, reported_feed options s line, List.forall_mem_append.mpr
    ⟨fun d hd => pointsOut_of_mem_raised hd, ?_⟩⟩
  split
  · exact List.forall_mem_nil _
  · next a hfeed => exact List.forall_mem_singleton.mpr (pointsOut_critical hfeed)

/-- Characters of several bytes stand between the values of an example without its pipe. -/
def wideOutline : List Text :=
  ["\"\"\"", "CONTRACT | f : int -> bool", "  EXAMPLE é (ß] ü -> True)"]

/-- The column and the named text of each diagnostic. -/
example : (reported Output.diagnostics (readLines .standard wideOutline)).map
    (fun d => (d.column, d.problem.named?)) =
      [(2, none), (10, some ['é']), (14, some [']']), (12, some ['(', 'ß', ')']), (16, some ['ü']),
        (25, some [')']), (0, none)] := by
  decide +kernel

end Outline.Session

end DesignRecipe

import DesignRecipe.Proofs.Outline.Abort
import DesignRecipe.Proofs.Outline.Columns

/-!
# Every diagnostic points into its line

A diagnostic names a line by its number, repeats its text, and points at a column of it
(`Diagnostic.PointsInto`). The line is the one that is being read when the diagnostic is
raised, with one exception: a contract line finishes the recipe before it, and what that one
lacks is reported at the line before the contract. There is such a line, for the recipe has
been opened by one.
-/

namespace DesignRecipe

/-- **A diagnostic that points into a line**: it names the line at a place counted from zero,
repeats it without its line end, and points at a column of it or at its end. -/
structure Diagnostic.PointsInto (lines : List Text) (i : Nat) (d : Diagnostic) : Prop where
  line : d.line = i + 1
  source : lines[i]?.map Text.dropLineEnd = some d.source
  column : d.column ≤ d.source.length

namespace Diagnostic.PointsInto

variable {lines : List Text} {line : Text} {i : Nat} {d : Diagnostic}

theorem lt_length (h : d.PointsInto lines i) : i < lines.length := by
  obtain ⟨line, hline, -⟩ := Option.map_eq_some_iff.mp h.source
  exact (List.getElem?_eq_some_iff.mp hline).1

/-- Lines that come later do not matter. -/
theorem append (h : d.PointsInto lines i) (more : List Text) : d.PointsInto (lines ++ more) i :=
  ⟨h.line, by rw [List.getElem?_append_left h.lt_length]; exact h.source, h.column⟩

theorem of_take {n : Nat} (h : d.PointsInto (lines.take n) i) : d.PointsInto lines i := by
  rw [← List.take_append_drop n lines]
  exact h.append _

/-- A finding within a line is reported as a diagnostic that points into it. -/
theorem ofFinding {f : Finding} (severity : Severity) (hline : lines[i]? = some line)
    (hcolumn : f.column ≤ (Text.dropLineEnd line).length) :
    (Diagnostic.ofFinding severity (i + 1) (Text.dropLineEnd line) f).PointsInto lines i := by
  have hsource := Text.dropLineEnd_dropLineEnd line
  refine ⟨rfl, ?_, ?_⟩
  · rw [hline, Option.map_some, Diagnostic.ofFinding, hsource]
  · rw [Diagnostic.ofFinding, hsource]
    exact hcolumn

end Diagnostic.PointsInto

namespace Outline

/-- All diagnostics of a reading, whether it has come to something that holds them or has been
stopped. -/
def reported {α : Type} (diagnostics : α → List Diagnostic) : Except Abort α → List Diagnostic
  | .ok a => diagnostics a
  | .error a => a.diagnostics

namespace Session

/-- **Where a diagnostic points that is raised by the line at a place**: into that line, or
else the line is a contract line, and what the recipe lacks that it finishes is reported at the
line before. -/
def Attributed (s : Session) (lines : List Text) (i : Nat) (d : Diagnostic) : Prop :=
  d.PointsInto lines i ∨
    ∃ j r, i = j + 1 ∧ d.PointsInto lines j ∧ s.current = some r ∧
      d.problem = .incomplete r.name r.gaps ∧
        lines[i]?.map s.state.next = some ⟨.recipe, .contract⟩

variable {options : Options} {s : Session} {lines : List Text} {line : Text} {a : Abort}
  {d : Diagnostic} {i : Nat}

theorem Attributed.of_take (h : s.Attributed (lines.take (i + 1)) i d) :
    s.Attributed lines i d := by
  rcases h with hhere | ⟨j, r, hj, hbefore, hr, hproblem, hcontract⟩
  · exact Or.inl hhere.of_take
  · refine Or.inr ⟨j, r, hj, hbefore.of_take, hr, hproblem, ?_⟩
    rwa [List.getElem?_take_of_lt (Nat.lt_succ_self i)] at hcontract

theorem Attributed.exists_le (h : s.Attributed lines i d) :
    ∃ j, d.PointsInto lines j ∧ j ≤ i := by
  rcases h with hhere | ⟨j, _, rfl, hbefore, -⟩
  · exact ⟨i, hhere, Nat.le_refl i⟩
  · exact ⟨j, hbefore, Nat.le_succ j⟩

/-! ### What a recipe lacks -/

theorem eq_of_mem_completeness {r : Recipe} {number : Nat} {source : Text}
    (h : d ∈ completeness r number source) :
    d = Diagnostic.ofFinding .ignorable number source ⟨0, .incomplete r.name r.gaps⟩ := by
  rw [completeness] at h
  split at h
  · exact absurd h (by simp)
  · exact List.mem_singleton.mp h

/-- What a recipe lacks is reported at the line where it ends. -/
theorem pointsInto_of_mem_completeness {r : Recipe} (hline : lines[i]? = some line)
    (h : d ∈ completeness r (i + 1) (Text.dropLineEnd line)) : d.PointsInto lines i := by
  rw [eq_of_mem_completeness h]
  exact .ofFinding _ hline (Nat.zero_le _)

/-- A recipe under construction has been opened by a line. -/
theorem ne_nil_of_current {r : Recipe} (hs : start.feedAll options lines = .ok s)
    (hr : s.current = some r) : lines ≠ [] := by
  rintro rfl
  rw [feedAll, Except.ok.injEq] at hs
  rw [← hs] at hr
  exact absurd hr (by simp [start])

/-! ### One line -/

/-- **What a line raises points into it**, or into the line before. -/
theorem attributed_of_mem_raised (hs : start.feedAll options lines = .ok s)
    (hd : d ∈ raised options s line) : s.Attributed (lines ++ [line]) lines.length d := by
  have hline : (lines ++ [line])[lines.length]? = some line := List.getElem?_concat_length
  rw [raised, lineCount_of_feedAll hs] at hd
  split at hd
  · next hcontract =>
    rcases List.mem_append.mp hd with hhere | hlacks
    · obtain ⟨f, hf, rfl⟩ := List.mem_map.mp hhere
      exact Or.inl (.ofFinding _ hline ((Payload.standsIn_ofLine _).findings f hf).column_le)
    · split at hlacks
      · right
        obtain ⟨r, hr, hd⟩ := List.mem_flatMap.mp hlacks
        rw [Option.mem_toList] at hr
        -- The lines before the contract end with the one that is named.
        obtain ⟨front, previous, rfl⟩ :=
          (List.eq_nil_or_concat' lines).resolve_left (ne_nil_of_current hs hr)
        have hnumber : max (front ++ [previous]).length 1 = front.length + 1 := by simp
        rw [hnumber, line_of_feedAll hs, List.getLast?_concat] at hd
        refine ⟨front.length, r, by simp, pointsInto_of_mem_completeness ?_ hd, hr, ?_, ?_⟩
        · simp
        · rw [eq_of_mem_completeness hd]
          rfl
        · rw [hline, Option.map_some, hcontract]
      · exact absurd hlacks (by simp)
  · split at hd
    · obtain ⟨r, -, hd⟩ := List.mem_flatMap.mp hd
      obtain ⟨f, hf, rfl⟩ := List.mem_map.mp hd
      exact Or.inl (.ofFinding _ hline (pointsInto_of_readSection _ _ _ r f hf).column_le)
    · exact absurd hd (by simp)

/-- **The diagnostic that stops the reading points into the line** where it stops. -/
theorem pointsInto_critical (hs : start.feedAll options lines = .ok s)
    (h : s.feed options line = .error a) :
    a.critical.PointsInto (lines ++ [line]) lines.length := by
  have hline : (lines ++ [line])[lines.length]? = some line := List.getElem?_concat_length
  have hcount := lineCount_of_feedAll hs
  have ho := outcome_feed options s line
  rw [h] at ho
  cases ho with
  | arrowless _ hread =>
    have hcolumn := (Contract.pointsInto_of_read hread).column_le
    rw [← hcount] at hline ⊢
    exact .ofFinding _ hline hcolumn
  | ownerless =>
    rw [← hcount] at hline ⊢
    exact .ofFinding _ hline (Nat.zero_le _)

/-- What a line adds to the diagnostics, with the one that stops the reading if it does. -/
theorem reported_feed (options : Options) (s : Session) (line : Text) :
    reported Session.diagnostics (s.feed options line) =
      s.diagnostics ++ (raised options s line ++
        match s.feed options line with
        | .ok _ => []
        | .error a => [a.critical]) := by
  cases hfeed : s.feed options line with
  | ok t =>
    rw [reported, diagnostics_of_feed hfeed, List.append_nil]
  | error a =>
    have hline := diagnosed_feed options s line
    rw [hfeed] at hline
    rw [reported, Abort.diagnostics, ← List.append_assoc, ← hline]
    rfl

/-- What is raised at a line of a run, also if the reading stops there, points into that line or
into the line before. -/
theorem exists_reported_feed (hs : start.feedAll options (lines.take i) = .ok s)
    (hline : lines[i]? = some line) :
    ∃ new, reported Session.diagnostics (s.feed options line) = s.diagnostics ++ new ∧
      ∀ d ∈ new, s.Attributed lines i d := by
  have hlength : (lines.take i).length = i :=
    List.length_take_of_le (List.getElem?_eq_some_iff.mp hline).1.le
  refine ⟨_, reported_feed options s line, fun d hd => Attributed.of_take ?_⟩
  rw [take_succ_eq_concat hline]
  rcases List.mem_append.mp hd with hraised | hcritical
  · have hhere := attributed_of_mem_raised hs hraised
    rwa [hlength] at hhere
  · split at hcritical
    · exact absurd hcritical (by simp)
    · next a hfeed =>
      have hhere := pointsInto_critical hs hfeed
      rw [List.mem_singleton.mp hcritical]
      rw [hlength] at hhere
      exact Or.inl hhere

/-! ### Runs -/

/-- The diagnostics of a run point into its lines. -/
theorem exists_pointsInto_of_feedAll (h : start.feedAll options lines = .ok s) :
    ∀ d ∈ s.diagnostics, ∃ i, d.PointsInto lines i := by
  refine feedAll_induction (P := fun lines s => ∀ d ∈ s.diagnostics, ∃ i, d.PointsInto lines i)
    (List.forall_mem_nil _) ?_ h
  intro lines line s t hs ih hfeed d hd
  rw [diagnostics_of_feed hfeed] at hd
  rcases List.mem_append.mp hd with hbefore | hraised
  · obtain ⟨i, hi⟩ := ih d hbefore
    exact ⟨i, hi.append _⟩
  · obtain ⟨j, hj, -⟩ := (attributed_of_mem_raised hs hraised).exists_le
    exact ⟨j, hj⟩

/-- What is raised at the end points into the last line. -/
theorem exists_reported_finish (hne : lines ≠ []) (hs : start.feedAll options lines = .ok s) :
    ∃ new, reported Output.diagnostics s.finish = s.diagnostics ++ new ∧
      ∀ d ∈ new, d.PointsInto lines (lines.length - 1) := by
  obtain ⟨front, last, rfl⟩ := (List.eq_nil_or_concat' lines).resolve_left hne
  have hline : (front ++ [last])[front.length]? = some last := List.getElem?_concat_length
  have hcount := lineCount_of_feedAll hs
  have hlast := line_of_feedAll hs
  rw [List.length_append, List.length_singleton] at hcount
  rw [List.getLast?_concat, Option.getD_some] at hlast
  rw [List.length_append, List.length_singleton, Nat.add_sub_cancel]
  cases hcurrent : s.current with
  | none =>
    have hfinish : s.finish = .error (s.abort ⟨0, .noContract⟩) :=
      finish_eq_error_iff.mpr ⟨hcurrent, rfl⟩
    refine ⟨[Diagnostic.ofFinding .critical s.lineCount s.line ⟨0, .noContract⟩], ?_, ?_⟩
    · rw [hfinish]
      rfl
    · rw [hcount, hlast]
      exact List.forall_mem_singleton.mpr (.ofFinding _ hline (Nat.zero_le _))
  | some r =>
    refine ⟨completeness r s.lineCount s.line, ?_, ?_⟩
    · simp [finish, hcurrent, reported]
    · rw [hcount, hlast]
      exact fun d hd => pointsInto_of_mem_completeness hline hd

end Session

open Session

variable {options : Options} {lines : List Text}

/-- All diagnostics of an outline point into lines up to the one where its reading aborts. -/
theorem exists_pointsInto_of_reported {d : Diagnostic} (hne : lines ≠ [])
    (hd : d ∈ reported Output.diagnostics (readLines options lines)) :
    ∃ i, d.PointsInto lines i ∧ ∀ k a, AbortsAt options lines k a → i ≤ k := by
  cases hread : start.feedAll options lines with
  | ok s =>
    have hnone (k : Nat) (a : Abort) : ¬AbortsAt options lines k a := by
      intro ha
      rw [(feedAll_of_abortsAt ha).2] at hread
      exact absurd hread (by simp)
    obtain ⟨new, hnew, hlast⟩ := exists_reported_finish hne hread
    rw [readLines, hread] at hd
    simp only [hnew] at hd
    rcases List.mem_append.mp hd with hbefore | hend
    · obtain ⟨i, hi⟩ := exists_pointsInto_of_feedAll hread d hbefore
      exact ⟨i, hi, fun k a ha => absurd ha (hnone k a)⟩
    · exact ⟨_, hlast d hend, fun k a ha => absurd ha (hnone k a)⟩
  | error a =>
    obtain ⟨i, habort⟩ := exists_abortsAt_of_feedAll hread
    obtain ⟨s, line, hs, hline, hfeed⟩ := id habort
    obtain ⟨new, hnew, hhere⟩ := exists_reported_feed hs hline
    rw [hfeed] at hnew
    rw [readLines, hread] at hd
    change d ∈ reported Session.diagnostics (.error a) at hd
    rw [hnew] at hd
    obtain ⟨j, hj, hle⟩ : ∃ j, d.PointsInto lines j ∧ j ≤ i := by
      rcases List.mem_append.mp hd with hbefore | hnew
      · obtain ⟨j, hj⟩ := exists_pointsInto_of_feedAll hs d hbefore
        have hlt := hj.lt_length
        rw [List.length_take] at hlt
        exact ⟨j, hj.of_take, by omega⟩
      · exact (hhere d hnew).exists_le
    exact ⟨j, hj, fun k a' ha' => hle.trans (habort.le ha')⟩

/-- **Every diagnostic points into a line that has been read.** What is raised while a line is
read, also if the reading stops there, points into that line; only what a recipe lacks that a
contract line finishes points into the line before. What is raised at the end points into the
last line. -/
theorem pointsInto_of_reported (options : Options) (lines : List Text) (hne : lines ≠ []) :
    (∀ i s line, start.feedAll options (lines.take i) = .ok s → lines[i]? = some line →
      ∃ new, reported Session.diagnostics (s.feed options line) = s.diagnostics ++ new ∧
        ∀ d ∈ new, s.Attributed lines i d) ∧
      (∀ s, start.feedAll options lines = .ok s →
        ∃ new, reported Output.diagnostics s.finish = s.diagnostics ++ new ∧
          ∀ d ∈ new, d.PointsInto lines (lines.length - 1)) ∧
      ∀ d ∈ reported Output.diagnostics (readLines options lines),
        ∃ i, d.PointsInto lines i ∧ ∀ k a, AbortsAt options lines k a → i ≤ k :=
  ⟨fun _ _ _ => exists_reported_feed, fun _ => exists_reported_finish hne,
    fun _ => exists_pointsInto_of_reported hne⟩

/-- An outline with a value that is not accepted behind one with an accent, a contract line
without its pipe, and one without its arrow. -/
def flawed : List Text :=
  ["\"\"\"", "CONTRACT | größe : text -> int", "EXAMPLES | 'é -> zwölf\r\n", "\"\"\"", "\"\"\"",
    "CONTRACT f : int -> int", "\"\"\"", "\"\"\"", "CONTRACT | g int"]

theorem pointsInto_of_reported_sample : flawed ≠ [] ∧
    (reported Output.diagnostics (readLines .standard flawed)).map
        (fun d => (d.severity, d.line, d.column)) =
      [(.ignorable, 3, 17), (.ignorable, 6, 0), (.ignorable, 5, 0), (.critical, 9, 11)] ∧
    ∀ d ∈ reported Output.diagnostics (readLines .standard flawed),
      ∃ i, d.PointsInto flawed i ∧ ∀ k a, AbortsAt .standard flawed k a → i ≤ k :=
  ⟨by decide, by decide, (pointsInto_of_reported .standard flawed (by decide)).2.2⟩

end Outline

end DesignRecipe

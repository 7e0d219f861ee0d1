import DesignRecipe.Proofs.Text.Lines
import DesignRecipe.Report

/-!
# The caret under its character

A report shows the line that a diagnostic is about and a caret below it. A long line is cut, and
three dots and the mark of the severity stand in front of it; each time the column moves along, so
that the same character stays above the caret (`Text.StandsFor`).
-/

namespace DesignRecipe

namespace Text

variable {s t : Text} {column column' start width : Nat}

/-- **A column of one text stands for a column of another**: the same character stands there, and
the end of a text stands for the end of the other. -/
structure StandsFor (s : Text) (column : Nat) (t : Text) (column' : Nat) : Prop where
  char : t[column']? = s[column]?
  last : column = s.length → column' = t.length

theorem StandsFor.refl (s : Text) (column : Nat) : StandsFor s column s column := ⟨rfl, id⟩

/-- What is put in front of a text moves its columns along. -/
theorem StandsFor.append_left (h : StandsFor s column t column') (front : Text) :
    StandsFor s column (front ++ t) (front.length + column') where
  char := by
    rw [List.getElem?_append_right (Nat.le_add_right _ _), Nat.add_sub_cancel_left, h.char]
  last hlast := by rw [List.length_append, h.last hlast]

/-- **A column stays in view** if the window starts at or before it and ends behind it, or with the
text. -/
theorem standsFor_window (s : Text) (hstart : start ≤ column)
    (hview : column < start + width ∨ s.length ≤ start + width) :
    StandsFor s column ((s.drop start).take width) (column - start) where
  char := by
    rw [List.getElem?_take, List.getElem?_drop, Nat.add_sub_cancel' hstart]
    split
    · rfl
    · -- The column is not in the window, so that it is not in the text either.
      exact (List.getElem?_eq_none (by omega)).symm
  last hlast := by
    rw [List.length_take, List.length_drop]
    omega

end Text

/-! ### The excerpt -/

namespace Diagnostic

variable {d : Diagnostic} {width : Nat}

theorem length_excerpt_le (d : Diagnostic) (width : Nat) :
    (d.excerpt width).1.length ≤ width + 3 := by
  rw [excerpt]
  split
  · dsimp only
    omega
  · simp only [List.length_append, List.length_take, List.length_cons, List.length_nil]
    omega

/-- **The excerpt keeps the character** that the diagnostic points at. -/
theorem standsFor_excerpt (hcolumn : d.column ≤ d.source.length) (hwidth : 1 ≤ width) :
    Text.StandsFor d.source d.column (d.excerpt width).1 (d.excerpt width).2 := by
  rw [excerpt]
  split
  · rw [Nat.min_eq_left hcolumn]
    exact .refl _ _
  · have hview : d.column < min (d.source.length - width) d.column + width ∨
        d.source.length ≤ min (d.source.length - width) d.column + width := by omega
    have hdots := (Text.standsFor_window d.source (Nat.min_le_right _ _) hview).append_left
      ['.', '.', '.']
    rw [Nat.add_comm] at hdots
    exact hdots

theorem mem_excerpt {c : Char} (h : c ∈ (d.excerpt width).1) : c = '.' ∨ c ∈ d.source := by
  rw [excerpt] at h
  split at h
  · exact Or.inr h
  · rcases List.mem_append.mp h with h | h
    · simp_all
    · exact Or.inr (List.mem_of_mem_drop (List.mem_of_mem_take h))

end Diagnostic

/-! ### The report -/

namespace Report

variable {d : Diagnostic}

/-- The line of a report that shows the source. -/
def sourceLine (d : Diagnostic) : Text :=
  severityMark false d.severity ++ " | " ++ (d.excerpt Diagnostic.excerptWidth).1

/-- What stands in front of the caret. -/
def indentation (d : Diagnostic) : Text :=
  Text.spaces 11 ++ " | " ++ Text.spaces (d.excerpt Diagnostic.excerptWidth).2

/-- The severities are written with as many characters as stand in front of the caret. -/
theorem length_severityMark (severity : Severity) : (severityMark false severity).length = 11 := by
  cases severity <;> rfl

/-- Spaces and a bar stand in front of the caret. -/
theorem mem_indentation {c : Char} (h : c ∈ indentation d) : c = ' ' ∨ c = '|' := by
  simp only [indentation, Text.spaces, List.mem_append, List.mem_replicate] at h
  rcases h with (⟨-, rfl⟩ | hbar) | ⟨-, rfl⟩
  · exact Or.inl rfl
  · simpa [or_comm] using hbar
  · exact Or.inl rfl

theorem lineFeed_notMem_sourceLine (h : '\n' ∉ d.source) : '\n' ∉ sourceLine d := by
  have hmark : '\n' ∉ severityMark false d.severity ++ " | " := by
    cases d.severity <;> decide
  exact fun hmem => (List.mem_append.mp hmem).elim hmark
    fun hmem => (Diagnostic.mem_excerpt hmem).elim (by decide) h

/-- **A report ends with the source and the caret** as two lines, whatever its message is. -/
theorem exists_lines_diagnostic (h : '\n' ∉ d.source) : ∃ front,
    Text.lines (diagnostic false d) = front ++ [sourceLine d, indentation d ++ ['^']] := by
  obtain ⟨first, more, hheader⟩ := Text.Lined.exists_lined
    ("PARSE ERROR" ++ " | At line " ++ Text.ofNat d.line ++ " -- " ++ d.message)
  have hcaret : '\n' ∉ indentation d ++ ['^'] := by
    intro hmem
    rcases List.mem_append.mp hmem with hmem | hmem
    · exact absurd (mem_indentation hmem) (by decide)
    · exact absurd hmem (by decide)
  have hlines := (hheader.append (.line (lineFeed_notMem_sourceLine h))).append (.line hcaret)
  refine ⟨first :: more, ?_⟩
  have htext : diagnostic false d =
      ("PARSE ERROR" ++ " | At line " ++ Text.ofNat d.line ++ " -- " ++ d.message ++ ['\n']) ++
        (sourceLine d ++ ['\n']) ++ (indentation d ++ ['^'] ++ ['\n']) := by
    simp [diagnostic, sourceLine, indentation, paint]
  rw [htext, hlines.lines_eq, List.append_assoc]
  rfl

/-- **The column of the caret** is where the character stands on the line above. -/
theorem standsFor_sourceLine (h : d.column ≤ d.source.length) :
    Text.StandsFor d.source d.column (sourceLine d) (indentation d).length := by
  have hwidth : 1 ≤ Diagnostic.excerptWidth := by decide
  have hexcerpt := (Diagnostic.standsFor_excerpt h hwidth).append_left
    (severityMark false d.severity ++ " | ")
  have hlength : (indentation d).length = (severityMark false d.severity ++ " | ").length +
      (d.excerpt Diagnostic.excerptWidth).2 := by
    simp only [indentation, Text.spaces, List.length_append, List.length_replicate,
      length_severityMark]
  rwa [hlength]

/-- **The caret stays under its character**: in the excerpt of any width, and on the last line of a
report without colours. -/
theorem caret_under_character (hcolumn : d.column ≤ d.source.length) :
    (∀ width, 1 ≤ width → (d.excerpt width).1.length ≤ width + 3 ∧
      Text.StandsFor d.source d.column (d.excerpt width).1 (d.excerpt width).2) ∧
    ('\n' ∉ d.source →
      (∃ front, Text.lines (diagnostic false d) =
        front ++ [sourceLine d, indentation d ++ ['^']]) ∧
      '^' ∉ indentation d ∧
      Text.StandsFor d.source d.column (sourceLine d) (indentation d).length) := by
  refine ⟨fun width hwidth => ⟨Diagnostic.length_excerpt_le d width,
    Diagnostic.standsFor_excerpt hcolumn hwidth⟩, fun hsource => ⟨?_, ?_, ?_⟩⟩
  · exact exists_lines_diagnostic hsource
  · exact fun hmem => absurd (mem_indentation hmem) (by decide)
  · exact standsFor_sourceLine hcolumn

/-- A problem behind the ninetieth character of a long line. -/
def farProblem : Diagnostic where
  severity := .critical
  line := 1
  column := 90
  problem := .other "oops"
  source := (List.range 100).map fun n => Char.ofNat ('a'.toNat + n % 26)

/-- The line is cut in front, and the character is still the one above the caret. -/
theorem caret_under_farProblem : farProblem.column ≤ farProblem.source.length ∧
    '\n' ∉ farProblem.source ∧ farProblem.source[90]? = some 'm' ∧
    (farProblem.excerpt 72).1[65]? = some 'm' ∧
    (sourceLine farProblem)[(indentation farProblem).length]? = some 'm' := by
  have hcolumn : farProblem.column ≤ farProblem.source.length := by decide
  have hsource : '\n' ∉ farProblem.source := by decide
  have hchar : farProblem.source[farProblem.column]? = some 'm' := by decide
  obtain ⟨hexcerpt, hreport⟩ := caret_under_character hcolumn
  refine ⟨hcolumn, hsource, hchar, ?_, ?_⟩
  · exact (hexcerpt 72 (by decide)).2.char.trans hchar
  · exact (hreport hsource).2.2.char.trans hchar

end Report

end DesignRecipe

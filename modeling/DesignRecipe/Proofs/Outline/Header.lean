import DesignRecipe.Proofs.Outline.SectionOrder
import DesignRecipe.Proofs.Text.Lines
import Mathlib.Data.List.Find

/-!
# Lines with a header

A line that starts with a header of a section, in letters of any case (`IsHeader`), has one header
only, and none of the marks that the reading looks for stands in it. So where the line belongs is
settled by the header and by whether there is an arrow in what comes behind
(`IsHeader.starts_eq`), and what stands between the header and the payload makes no difference to
it, be it a pipe or a blank.

Neither does it to the payload. Behind a pipe the payload is what comes next. Without one it is what
comes behind the header word, and then the pipe is missed (`payload_pipedLine`,
`payload_bareLine`). The blanks around the payload are trimmed away in either case.
-/

namespace DesignRecipe.Outline

open Text (isBlank)

/-! ### Headers -/

/-- **A header of a section**, in letters of any case. -/
structure IsHeader (h : Heading) (header : Text) : Prop where
  labelled : h ∈ Heading.labelled
  equals : Text.equalsIgnoringCase header h.label = true

namespace IsHeader

variable {h : Heading} {header : Text}

/-- A character of a header is one of the label, but for its case. -/
theorem toLower_mem {c : Char} (hheader : IsHeader h header) (hc : c ∈ header) :
    c.toLower ∈ h.label.map Char.toLower := by
  rw [← eq_of_beq hheader.equals]
  exact List.mem_map_of_mem hc

theorem isBlank_eq_false (hheader : IsHeader h header) : ∀ c ∈ header, isBlank c = false := by
  intro c hc
  by_contra hblank
  rw [Bool.not_eq_false] at hblank
  exact Text.forall_isBlank
    (P := fun c => ∀ h ∈ Heading.labelled, c.toLower ∉ h.label.map Char.toLower)
    (by decide +kernel) hblank h hheader.labelled (hheader.toLower_mem hc)

/-- None of the marks that the reading looks for stands in a header. -/
theorem marks_notMem (hheader : IsHeader h header) :
    '|' ∉ header ∧ '-' ∉ header ∧ '#' ∉ header := by
  have hmarks : ∀ h ∈ Heading.labelled,
      '|'.toLower ∉ h.label.map Char.toLower ∧ '-'.toLower ∉ h.label.map Char.toLower ∧
        '#'.toLower ∉ h.label.map Char.toLower := by decide
  obtain ⟨hpipe, hdash, hhash⟩ := hmarks h hheader.labelled
  exact ⟨mt hheader.toLower_mem hpipe, mt hheader.toLower_mem hdash, mt hheader.toLower_mem hhash⟩

theorem length_eq (hheader : IsHeader h header) : header.length = h.label.length := by
  simpa using congrArg List.length (eq_of_beq hheader.equals)

theorem ne_nil (hheader : IsHeader h header) : header ≠ [] := by
  have hlabel : ∀ h ∈ Heading.labelled, h.label.length ≠ 0 := by decide
  rintro rfl
  exact hlabel h hheader.labelled hheader.length_eq.symm

/-- **A line with a header has it still when it is trimmed.** -/
theorem trim_append (hheader : IsHeader h header) (rest : Text) :
    Text.trim (header ++ rest) = header ++ Text.trimRight rest := by
  have hlast : ∀ c ∈ header.getLast?, isBlank c = false := fun c hc =>
    hheader.isBlank_eq_false c (List.mem_of_getLast? hc)
  obtain ⟨c, header', rfl⟩ := List.exists_cons_of_ne_nil hheader.ne_nil
  rw [Text.trim, List.cons_append,
    Text.trimLeft_cons (hheader.isBlank_eq_false c List.mem_cons_self), ← List.cons_append]
  exact Text.dropEndWhile_append hheader.ne_nil hlast rest

/-- A line with a header starts with the label of that section and of no other. -/
theorem startsIgnoringCase_iff (hheader : IsHeader h header) (rest : Text) {h' : Heading}
    (hh' : h' ∈ Heading.labelled) :
    Text.startsIgnoringCase (header ++ rest) h'.label = true ↔ h' = h := by
  have hstarts : Text.startsIgnoringCase (header ++ rest) h.label = true := by
    rw [Text.startsIgnoringCase, ← hheader.length_eq, List.take_left]
    exact hheader.equals
  constructor
  · exact fun hother => State.eq_of_startsIgnoringCase hh' hheader.labelled hother hstarts
  · rintro rfl
    exact hstarts

/-- So the header is the one that is found. -/
theorem find?_label (hheader : IsHeader h header) (rest : Text) :
    Heading.labelled.find? (fun h' => Text.startsIgnoringCase (header ++ rest) h'.label) =
      some h := by
  have hlabel : ∀ h' ∈ Heading.labelled,
      Text.startsIgnoringCase (header ++ rest) h'.label = decide (h' = h) := by
    intro h' hh'
    exact Bool.eq_iff_iff.mpr
      ((hheader.startsIgnoringCase_iff rest hh').trans decide_eq_true_iff.symm)
  have hself : ∀ h ∈ Heading.labelled,
      Heading.labelled.find? (fun h' => decide (h' = h)) = some h := by decide
  rw [List.find?_congr hlabel]
  exact hself h hheader.labelled

end IsHeader

/-! ### Arrows in a line -/

/-- What stands before an arrow does not matter if no arrow starts in it. -/
theorem contains_append_arrow {front : Text} (h : '-' ∉ front) (t : Text) :
    Text.contains (front ++ t) arrow = Text.contains t arrow := by
  induction front with
  | nil => rfl
  | cons c front ih =>
    obtain ⟨hc, hfront⟩ := not_or.mp (mt List.mem_cons.mpr h)
    rw [List.cons_append, Text.contains, ih hfront]
    simp [arrow, hc]

/-- A character that ends no arrow may come behind a text. -/
theorem contains_concat_arrow {c : Char} (hc : '>' ≠ c) (t : Text) :
    Text.contains (t ++ [c]) arrow = Text.contains t arrow := by
  induction t with
  | nil => simp [Text.contains, arrow, List.isPrefixOf]
  | cons d t ih =>
    rw [List.cons_append, Text.contains, Text.contains, ih]
    cases t <;> simp [arrow, List.isPrefixOf, hc, Text.contains]

/-- Blanks at the end are no part of an arrow. -/
theorem contains_trimRight_arrow (t : Text) :
    Text.contains (Text.trimRight t) arrow = Text.contains t arrow := by
  induction t using List.reverseRecOn with
  | nil => rfl
  | append_singleton t c ih =>
    rw [Text.trimRight, Text.dropEndWhile_concat]
    split
    · next hblank =>
      have hc : '>' ≠ c := by
        rintro rfl
        exact absurd hblank (by decide)
      rw [contains_concat_arrow hc]
      exact ih
    · rfl

/-! ### Where a line with a header belongs -/

section Next

variable {h : Heading} {header between payload : Text}

/-- **The section that a line with a header starts** does not depend on what stands between the
header and the payload, as long as no arrow starts there. -/
theorem IsHeader.starts_eq (hheader : IsHeader h header) (hbetween : '-' ∉ between) (s : State)
    (payload : Text) {h' : Heading} (hh' : h' ∈ Heading.labelled) :
    s.starts (Text.trim (header ++ (between ++ payload))) h' =
      ((decide (h' = h) && s.allows h') ||
        (decide (h' = .example) && Text.contains payload arrow)) := by
  have hlabel : Text.startsIgnoringCase (header ++ Text.trimRight (between ++ payload)) h'.label =
      decide (h' = h) :=
    Bool.eq_iff_iff.mpr ((hheader.startsIgnoringCase_iff _ hh').trans decide_eq_true_iff.symm)
  have harrow : Text.contains (header ++ Text.trimRight (between ++ payload)) arrow =
      Text.contains payload arrow := by
    rw [contains_append_arrow hheader.marks_notMem.2.1, contains_trimRight_arrow,
      contains_append_arrow hbetween]
  rw [State.starts, hheader.trim_append, hlabel, harrow]

theorem IsHeader.startsIgnoringCase_trim (hheader : IsHeader h header) (rest : Text) :
    Text.startsIgnoringCase (Text.trim (header ++ rest)) h.label = true := by
  rw [hheader.trim_append]
  exact (hheader.startsIgnoringCase_iff _ hheader.labelled).mpr rfl

theorem IsHeader.delimits_eq_false (hheader : IsHeader h header) (rest : Text) :
    State.delimits (header ++ rest) = false :=
  State.delimits_eq_false_of_header hheader.labelled (hheader.startsIgnoringCase_trim rest)

/-- Where the header counts the line is one of its section. -/
theorem IsHeader.next_of_honors (hheader : IsHeader h header) {s : State}
    (hhonors : s.honors h = true) (rest : Text) : s.next (header ++ rest) = ⟨.recipe, h⟩ :=
  State.next_of_honors hhonors hheader.labelled (hheader.startsIgnoringCase_trim rest)

theorem IsHeader.head?_ne (hheader : IsHeader h header) (rest : Text) :
    (Text.trim (header ++ rest)).head? ≠ some '#' := by
  rw [hheader.trim_append, List.head?_append_of_ne_nil _ hheader.ne_nil]
  exact fun hhead => hheader.marks_notMem.2.2 (List.mem_of_head? hhead)

/-- **A line with a header leads to the same state**, whatever stands between the header and the
payload, as long as no arrow starts there. -/
theorem IsHeader.next_eq (hheader : IsHeader h header) {between' : Text} (hbetween : '-' ∉ between)
    (hbetween' : '-' ∉ between') (s : State) (payload : Text) :
    s.next (header ++ (between' ++ payload)) = s.next (header ++ (between ++ payload)) := by
  have hdelimiter (rest : Text) : State.isDelimiter (Text.trim (header ++ rest)) = false :=
    hheader.delimits_eq_false rest
  have hstep (s : State) : s.step (Text.trim (header ++ (between' ++ payload))) =
      s.step (Text.trim (header ++ (between ++ payload))) := by
    have hdetect : s.detect? (Text.trim (header ++ (between' ++ payload))) =
        s.detect? (Text.trim (header ++ (between ++ payload))) := by
      refine List.find?_congr fun h' hh' => ?_
      rw [hheader.starts_eq hbetween s payload hh', hheader.starts_eq hbetween' s payload hh']
    simp only [State.step, hdelimiter, if_neg (hheader.head?_ne _), hdetect]
  simp only [State.next, hstep]

end Next

/-! ### The payload -/

section Payload

variable {h : Heading} {header payload : Text}

/-- **A line with a header and a pipe**, and then its payload. -/
def pipedLine (header payload : Text) : Text := header ++ ([' ', '|', ' '] ++ payload)

/-- **A line with a header and no pipe.** -/
def bareLine (header payload : Text) : Text := header ++ ([' '] ++ payload)

/-- The line end is at the end of the payload. -/
theorem dropLineEnd_between {between : Text} (hbetween : between.getLast? = some ' ')
    (header payload : Text) :
    Text.dropLineEnd (header ++ (between ++ payload)) =
      header ++ (between ++ Text.dropLineEnd payload) := by
  have hne : header ++ between ≠ [] := by
    rintro hnil
    rw [(List.append_eq_nil_iff.mp hnil).2] at hbetween
    cases hbetween
  have hlast : ∀ c ∈ (header ++ between).getLast?, (c == '\r' || c == '\n') = false := by
    rw [List.getLast?_append, hbetween]
    rintro c ⟨⟩
    decide
  rw [← List.append_assoc, Text.dropLineEnd, Text.dropEndWhile_append hne hlast,
    List.append_assoc]
  rfl

/-- **What comes behind the first pipe is the payload**, without the blanks around it. -/
theorem Payload.exists_ofLine_append {front : Text} (h : '|' ∉ front) (rest : Text) :
    ∃ column, ofLine (front ++ '|' :: rest) = ⟨Text.trim rest, column, []⟩ := by
  have hpipe : ∀ c ∈ ('|' :: rest).head?, c = '|' := by simp
  rw [ofLine, (Text.takeWhile_ne_append h hpipe).2]
  exact ⟨_, rfl⟩

theorem payload_pipedLine (hheader : IsHeader h header) (payload : Text) :
    ∃ column, Payload.ofLine (pipedLine header payload) = ⟨Text.trim payload, column, []⟩ := by
  have hline : pipedLine header payload = header ++ [' '] ++ '|' :: ' ' :: payload := by
    simp [pipedLine]
  have htrim : Text.trim (' ' :: payload) = Text.trim payload :=
    Text.trim_blank_append Text.Blank.space payload
  rw [hline, ← htrim]
  exact Payload.exists_ofLine_append (by simp [hheader.marks_notMem.1]) _

/-- Behind a blank no word goes on, also if the blank is trimmed away with what follows it. -/
theorem takeWhile_trimRight_blank (t : Text) :
    (Text.trimRight (' ' :: t)).takeWhile (fun c => !isBlank c) = [] := by
  obtain ⟨after, hafter⟩ := Text.isPrefix_dropEndWhile isBlank (' ' :: t)
  rw [Text.trimRight]
  cases hcases : Text.dropEndWhile isBlank (' ' :: t) with
  | nil => rfl
  | cons c rest =>
    rw [hcases, List.cons_append] at hafter
    rw [(List.cons_eq_cons.mp hafter).1]
    rfl

/-- Without a pipe the payload is what stands behind the header, and the pipe is missed. -/
theorem payload_bareLine (hheader : IsHeader h header) (hpayload : '|' ∉ payload) :
    ∃ column column', Payload.ofLine (bareLine header payload) =
      ⟨Text.trim payload, column, [⟨column', .missingPipe⟩]⟩ := by
  have hpipe : (bareLine header payload).dropWhile (· != '|') = [] := by
    rw [Text.dropWhile_ne_eq_nil_iff]
    simp [bareLine, hheader.marks_notMem.1, hpayload]
  have hstripped : Text.trim (bareLine header payload) =
      header ++ Text.trimRight ([' '] ++ payload) := hheader.trim_append _
  have hafter : (header ++ Text.trimRight ([' '] ++ payload)).drop h.label.length =
      Text.trimRight ([' '] ++ payload) := by
    rw [← hheader.length_eq, List.drop_left]
  -- The header word ends with the header, for a blank comes next if anything does.
  have hword : (Text.trimRight ([' '] ++ payload)).takeWhile (fun c => !isBlank c) = [] :=
    takeWhile_trimRight_blank payload
  have htrim : Text.trim (Text.trimRight ([' '] ++ payload)) = Text.trim payload := by
    rw [Text.trim_trimRight, Text.trim_blank_append Text.Blank.space]
  simp only [Payload.ofLine, hpipe, Payload.withoutPipe, hstripped, hheader.find?_label, hafter,
    hword, List.length_nil, List.drop_zero, Payload.trimmed, htrim]
  exact ⟨_, _, rfl⟩

/-- The line end is trimmed away with the blanks behind the payload. -/
theorem payload_dropLineEnd_pipedLine (hheader : IsHeader h header) (payload : Text) :
    ∃ column, Payload.ofLine (Text.dropLineEnd (pipedLine header payload)) =
      ⟨Text.trim payload, column, []⟩ := by
  have hline : Text.dropLineEnd (pipedLine header payload) =
      pipedLine header (Text.dropLineEnd payload) := dropLineEnd_between (by decide) header payload
  rw [hline, ← Text.trim_dropLineEnd payload]
  exact payload_pipedLine hheader (Text.dropLineEnd payload)

theorem payload_dropLineEnd_bareLine (hheader : IsHeader h header) (hpayload : '|' ∉ payload) :
    ∃ column column', Payload.ofLine (Text.dropLineEnd (bareLine header payload)) =
      ⟨Text.trim payload, column, [⟨column', .missingPipe⟩]⟩ := by
  have hline : Text.dropLineEnd (bareLine header payload) =
      bareLine header (Text.dropLineEnd payload) := dropLineEnd_between (by decide) header payload
  rw [hline, ← Text.trim_dropLineEnd payload]
  exact payload_bareLine hheader (mt (Text.mem_dropLineEnd (by decide) payload).mp hpayload)

end Payload

end DesignRecipe.Outline

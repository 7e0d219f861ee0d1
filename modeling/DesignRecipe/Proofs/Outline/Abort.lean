import DesignRecipe.Proofs.Outline.Accounting
import DesignRecipe.Proofs.Outline.Diagnostics

/-!
# When a reading aborts

Whether a line stops the reading can be told from the lines alone, for two things that the
reading knows are known from the lines: its state, and whether a recipe is under
construction, which is so from the first contract line on. So a contract line stops the
reading if it has no arrow in its place, and a line that needs a recipe stops it if no
contract line has come before (`Stops`); an outline that no line stops is refused at its
end if it has no contract line at all. There is no other way to fail.

The refusal itself is one critical diagnostic after all those that have been raised before
(`Tells`).
-/

namespace DesignRecipe.Outline

/-! ### Contracts without an arrow -/

namespace Contract

/-- **A payload without an arrow in its place**: the words, colons being blanks, are less
than three, or the second-to-last one is no arrow. -/
def Arrowless (payload : Text) : Prop :=
  let words := (wordsOf payload).map Piece.text
  words.length < 3 ∨ words[words.length - 2]? ≠ some arrow

instance (payload : Text) : Decidable (Arrowless payload) :=
  inferInstanceAs (Decidable (_ ∨ _))

theorem splitLastTwo_append (front : List Text) (b c : Text) :
    splitLastTwo (front ++ [b, c]) = some (front, b, c) := by
  induction front with
  | nil => rfl
  | cons a front ih =>
    cases front with
    | nil => rfl
    | cons a' front =>
      rw [List.cons_append, splitLastTwo, ih]
      · rfl
      · simp
      · simp

/-- Two words or more end with two words. -/
theorem exists_eq_append_pair {words : List Text} (h : 2 ≤ words.length) :
    ∃ front b c, words = front ++ [b, c] := by
  rcases List.eq_nil_or_concat words with rfl | ⟨init, c, rfl⟩
  · exact absurd h (by decide)
  · rcases List.eq_nil_or_concat init with rfl | ⟨front, b, rfl⟩
    · exact absurd h (by simp)
    · exact ⟨front, b, c, by simp⟩

/-- Words are rejected exactly if the arrow is not in its place. -/
theorem ofWords?_eq_none_iff {words : List Text} : ofWords? words = none ↔
    words.length < 3 ∨ words[words.length - 2]? ≠ some arrow := by
  by_cases htwo : 2 ≤ words.length
  · obtain ⟨front, b, c, rfl⟩ := exists_eq_append_pair htwo
    have hbefore : (front ++ [b, c])[(front ++ [b, c]).length - 2]? = some b := by simp
    rw [ofWords?, splitLastTwo_append, hbefore]
    cases front with
    | nil => simp
    | cons name args =>
      by_cases harrow : b = arrow
      · simp [harrow]
      · simp [harrow]
  · have hshort : words.length < 3 := by omega
    have hnone : splitLastTwo words = none := by
      match words with
      | [] => rfl
      | [_] => rfl
      | _ :: _ :: _ => exact absurd htwo (by simp)
    simp [ofWords?, hnone, hshort]

/-- **A payload is rejected exactly if it has no arrow in its place.** -/
theorem exists_read_eq_error_iff {payload : Payload} :
    (∃ f, read payload = .error f) ↔ Arrowless payload.text := by
  rw [Arrowless, ← ofWords?_eq_none_iff, read]
  cases ofWords? ((wordsOf payload.text).map Piece.text) <;> simp

/-- What is found wrong with a rejected payload is the missing arrow. -/
theorem problem_of_read {payload : Payload} {f : Finding} (h : read payload = .error f) :
    f.problem = .contractWithoutArrow := by
  rw [read] at h
  split at h
  · exact absurd h (by simp)
  · rw [← Except.error.inj h]

end Contract

namespace Session

variable {options : Options} {s t u : Session} {lines : List Text} {line : Text} {a : Abort}

/-! ### One line -/

/-- **What stops the reading at a line.** -/
theorem exists_feed_eq_error_iff : (∃ a, s.feed options line = .error a) ↔
    (s.state.next line = ⟨.recipe, .contract⟩ ∧
        Contract.Arrowless (Payload.ofLine (Text.dropLineEnd line)).text) ∨
      (s.current = none ∧ Owned (s.state.next line) line) := by
  have ho := outcome_feed options s line
  have hnext := state_advance_dropLineEnd s line
  generalize s.feed options line = e at ho
  cases ho with
  | passed hregion howned =>
    rw [hnext] at hregion howned
    rw [owned_dropLineEnd] at howned
    simp [State.ne_contract_of_region hregion, howned]
  | opened hstate hread =>
    rw [hnext] at hstate
    have harrow : ¬Contract.Arrowless (Payload.ofLine (Text.dropLineEnd line)).text := by
      rw [← Contract.exists_read_eq_error_iff, hread]
      simp
    simp [hstate, harrow, Owned]
  | arrowless hstate hread =>
    rw [hnext] at hstate
    exact iff_of_true ⟨_, rfl⟩
      (Or.inl ⟨hstate, Contract.exists_read_eq_error_iff.mp ⟨_, hread⟩⟩)
  | continued hstate =>
    rw [hnext] at hstate
    simp [hstate, Owned]
  | extended _ howned hcurrent =>
    rw [current_advance] at hcurrent
    rw [hnext] at howned
    simp [howned.ne_contract, hcurrent]
  | outlined _ howned hcurrent =>
    rw [current_advance] at hcurrent
    rw [hnext] at howned
    simp [howned.ne_contract, hcurrent]
  | ownerless howned hcurrent =>
    rw [hnext] at howned
    exact iff_of_true ⟨_, rfl⟩ (Or.inr ⟨hcurrent, owned_dropLineEnd.mp howned⟩)

/-- An accepted line is none that stops the reading. -/
theorem not_stopped_of_feed (h : s.feed options line = .ok t) :
    (s.state.next line = ⟨.recipe, .contract⟩ →
        ¬Contract.Arrowless (Payload.ofLine (Text.dropLineEnd line)).text) ∧
      (s.current = none → ¬Owned (s.state.next line) line) := by
  have herror : ¬∃ e, s.feed options line = .error e := by
    rintro ⟨e, he⟩
    rw [h] at he
    exact absurd he (by simp)
  rw [exists_feed_eq_error_iff, not_or, not_and, not_and] at herror
  exact herror

/-- A line that does not stop the reading is accepted. -/
theorem exists_feed_of_not_stopped
    (hcontract : s.state.next line = ⟨.recipe, .contract⟩ →
      ¬Contract.Arrowless (Payload.ofLine (Text.dropLineEnd line)).text)
    (howned : s.current = none → ¬Owned (s.state.next line) line) :
    ∃ t, s.feed options line = .ok t := by
  have herror : ¬∃ e, s.feed options line = .error e := by
    rw [exists_feed_eq_error_iff, not_or, not_and, not_and]
    exact ⟨hcontract, howned⟩
  cases hfeed : s.feed options line with
  | error e => exact absurd ⟨e, hfeed⟩ herror
  | ok t => exact ⟨t, rfl⟩

/-- The diagnostic that stops the reading at a line. -/
theorem critical_of_feed (h : s.feed options line = .error a) :
    a.critical.severity = .critical ∧ a.critical.line = s.lineCount + 1 ∧
      a.critical.source = Text.dropLineEnd line ∧
      a.critical.problem =
        if s.state.next line = ⟨.recipe, .contract⟩ then .contractWithoutArrow
        else .noContractYet := by
  have ho := outcome_feed options s line
  have hnext := state_advance_dropLineEnd s line
  rw [h] at ho
  cases ho with
  | arrowless hstate hread =>
    rw [hnext] at hstate
    refine ⟨rfl, rfl, Text.dropLineEnd_dropLineEnd line, ?_⟩
    rw [if_pos hstate]
    exact Contract.problem_of_read hread
  | ownerless howned _ =>
    rw [hnext] at howned
    refine ⟨rfl, rfl, Text.dropLineEnd_dropLineEnd line, ?_⟩
    rw [if_neg howned.ne_contract]
    rfl

/-! ### The whole run -/

/-- **No recipe is under construction until a contract line comes.** -/
theorem current_eq_none_iff (h : start.feedAll options lines = .ok s) :
    s.current = none ↔ ∀ p ∈ place lines, p.opens = false := by
  rw [← segments_eq_nil_iff]
  have haccounted := accounted_of_feedAll h
  generalize segments (place lines) = all at haccounted
  cases haccounted with
  | empty hnone => simp [hnone]
  | concat _ hcurrent => simp [hcurrent]

/-- An outline can be refused at its end only for having no contract. -/
theorem finish_eq_error_iff :
    s.finish = .error a ↔ s.current = none ∧ a = s.abort ⟨0, .noContract⟩ := by
  cases hcurrent : s.current with
  | none => simp [finish, hcurrent, eq_comm]
  | some r => simp [finish, hcurrent]

end Session

open Session

variable {options : Options} {s t : Session} {lines : List Text} {line : Text} {a : Abort}
  {i j : Nat}

/-- **The lines that stop a reading**: contract lines without an arrow in its place, and
lines that need a recipe where no contract line has come before. -/
def Stops (lines : List Text) (i : Nat) : Prop :=
  ∃ p ∈ (place lines)[i]?,
    ((p.opens = true ∧ Contract.Arrowless (Payload.ofLine (Text.dropLineEnd p.line)).text) ∨
      ((∀ q ∈ place (lines.take i), q.opens = false) ∧ Owned p.state p.line))

instance (lines : List Text) (i : Nat) : Decidable (Stops lines i) :=
  inferInstanceAs (Decidable (∃ p ∈ _, _ ∨ _))

/-- **The reading aborts at a line**: it accepts all the lines before it, and stops there. -/
def AbortsAt (options : Options) (lines : List Text) (i : Nat) (a : Abort) : Prop :=
  ∃ s line, start.feedAll options (lines.take i) = .ok s ∧ lines[i]? = some line ∧
    s.feed options line = .error a

theorem Stops.exists_line (h : Stops lines i) : ∃ line, lines[i]? = some line := by
  obtain ⟨p, hp, -⟩ := h
  rw [getElem?_place, Option.mem_def] at hp
  obtain ⟨line, hline, -⟩ := Option.map_eq_some_iff.mp hp
  exact ⟨line, hline⟩

/-- Lines up to a place of theirs are the lines before it and the one there. -/
theorem take_succ_eq_concat (hline : lines[i]? = some line) :
    lines.take (i + 1) = lines.take i ++ [line] := by
  rw [List.take_add_one, hline, Option.toList_some]

/-- Where the lines before it are accepted, a line is not if it is one of those that stop. -/
theorem exists_feed_eq_error_iff_stops (hs : start.feedAll options (lines.take i) = .ok s)
    (hline : lines[i]? = some line) : (∃ a, s.feed options line = .error a) ↔ Stops lines i := by
  have hplace : (place lines)[i]? = some ⟨line, s.state.next line⟩ := by
    rw [getElem?_place, hline, take_succ_eq_concat hline, State.after_concat,
      ← state_of_feedAll hs]
    rfl
  rw [exists_feed_eq_error_iff, current_eq_none_iff hs]
  simp [Stops, hplace, Placed.opens]

/-- Lines that have been accepted do not stop the reading. -/
theorem not_stops_of_feedAll (hs : start.feedAll options (lines.take i) = .ok s) (hj : j < i) :
    ¬Stops lines j := by
  intro hstops
  obtain ⟨line, hline⟩ := hstops.exists_line
  obtain ⟨t, ht, -⟩ := exists_feedAll_take hs (j + 1)
  rw [List.take_take, Nat.min_eq_left hj, take_succ_eq_concat hline] at ht
  obtain ⟨u, hu, hfeed⟩ := feedAll_concat_eq_ok.mp ht
  obtain ⟨a, ha⟩ := (exists_feed_eq_error_iff_stops hu hline).mpr hstops
  rw [hfeed] at ha
  exact absurd ha (by simp)

/-- Lines that do not stop the reading are accepted. -/
theorem exists_feedAll_of_not_stops (options : Options) (h : ∀ j < i, ¬Stops lines j) :
    ∃ s, start.feedAll options (lines.take i) = .ok s := by
  induction i with
  | zero => exact ⟨start, rfl⟩
  | succ i ih =>
    obtain ⟨s, hs⟩ := ih fun j hj => h j (Nat.lt_succ_of_lt hj)
    cases hline : lines[i]? with
    | none =>
      -- The lines have come to their end before.
      refine ⟨s, ?_⟩
      rw [List.take_add_one, hline, Option.toList_none, List.append_nil]
      exact hs
    | some line =>
      rw [take_succ_eq_concat hline]
      cases hfeed : s.feed options line with
      | ok t => exact ⟨t, feedAll_concat_eq_ok.mpr ⟨s, hs, hfeed⟩⟩
      | error a =>
        have hstops := (exists_feed_eq_error_iff_stops hs hline).mp ⟨a, hfeed⟩
        exact absurd hstops (h i (Nat.lt_succ_self i))

/-- **A reading aborts at the first line that stops it.** -/
theorem exists_abortsAt_iff :
    (∃ a, AbortsAt options lines i a) ↔ Stops lines i ∧ ∀ j < i, ¬Stops lines j := by
  constructor
  · rintro ⟨a, s, line, hs, hline, hfeed⟩
    exact ⟨(exists_feed_eq_error_iff_stops hs hline).mp ⟨a, hfeed⟩,
      fun j hj => not_stops_of_feedAll hs hj⟩
  · rintro ⟨hstops, hbefore⟩
    obtain ⟨s, hs⟩ := exists_feedAll_of_not_stops options hbefore
    obtain ⟨line, hline⟩ := hstops.exists_line
    obtain ⟨a, hfeed⟩ := (exists_feed_eq_error_iff_stops hs hline).mpr hstops
    exact ⟨a, s, line, hs, hline, hfeed⟩

/-- A reading that fails aborts at a line. -/
theorem exists_abortsAt_of_feedAll (h : start.feedAll options lines = .error a) :
    ∃ i, AbortsAt options lines i a := by
  induction lines using List.reverseRecOn generalizing a with
  | nil => exact absurd h (by simp [feedAll])
  | append_singleton lines line ih =>
    rw [feedAll_append] at h
    cases hlines : start.feedAll options lines with
    | error a' =>
      rw [hlines] at h
      obtain rfl := Except.error.inj h
      obtain ⟨i, s, line', hs, hline', hfeed⟩ := ih hlines
      have hi := (List.getElem?_eq_some_iff.mp hline').1
      refine ⟨i, s, line', ?_, ?_, hfeed⟩
      · rw [List.take_append_of_le_length hi.le]
        exact hs
      · rw [List.getElem?_append_left hi]
        exact hline'
    | ok s =>
      rw [hlines] at h
      refine ⟨lines.length, s, line, by rw [List.take_left]; exact hlines, by simp, ?_⟩
      simp only [feedAll] at h
      split at h
      · next hfeed => rw [hfeed, Except.error.inj h]
      · exact absurd h (by simp)

/-- A reading aborts at one line only. -/
theorem AbortsAt.le {a' : Abort} (h : AbortsAt options lines i a)
    (h' : AbortsAt options lines j a') : i ≤ j := by
  by_contra hlt
  exact (exists_abortsAt_iff.mp ⟨a, h⟩).2 j (Nat.lt_of_not_le hlt)
    (exists_abortsAt_iff.mp ⟨a', h'⟩).1

/-! ### What is told -/

/-- **What a refusal tells**: one critical diagnostic, of the problem on the line, and before
it exactly what has been raised, all of it ignorable. -/
structure Tells (a : Abort) (problem : Problem) (number : Nat) (source : Text)
    (raised : List Diagnostic) : Prop where
  severity : a.critical.severity = .critical
  problem : a.critical.problem = problem
  line : a.critical.line = number
  source : a.critical.source = source
  earlier : a.earlier = raised
  ignorable : ∀ d ∈ a.earlier, d.severity = .ignorable

/-- The lines after the one where a reading aborts do not matter. -/
theorem feedAll_of_abortsAt (h : AbortsAt options lines i a) :
    start.feedAll options (lines.take (i + 1)) = .error a ∧
      start.feedAll options lines = .error a := by
  obtain ⟨s, line, hs, hline, hfeed⟩ := h
  have htake : start.feedAll options (lines.take (i + 1)) = .error a := by
    rw [take_succ_eq_concat hline, feedAll_append, hs]
    simp only [feedAll, hfeed]
  refine ⟨htake, ?_⟩
  rw [← List.take_append_drop (i + 1) lines, feedAll_append, htake]

/-- **What is told at a line.** -/
theorem tells_of_abortsAt (h : AbortsAt options lines i a) :
    ∃ line, lines[i]? = some line ∧
      Tells a
        (if State.after (lines.take (i + 1)) = ⟨.recipe, .contract⟩ then .contractWithoutArrow
          else .noContractYet)
        (i + 1) (Text.dropLineEnd line) (raisedOver options start (lines.take (i + 1))) := by
  have hraised := diagnosed_feedAll options start (lines.take (i + 1))
  rw [(feedAll_of_abortsAt h).1] at hraised
  obtain ⟨s, line, hs, hline, hfeed⟩ := h
  obtain ⟨hseverity, hnumber, hsource, hproblem⟩ := critical_of_feed hfeed
  have hi : i < lines.length := (List.getElem?_eq_some_iff.mp hline).1
  refine ⟨line, hline, hseverity, ?_, ?_, hsource, hraised, ?_⟩
  · rw [hproblem, take_succ_eq_concat hline, State.after_concat, state_of_feedAll hs]
  · rw [hnumber, lineCount_of_feedAll hs, List.length_take_of_le hi.le]
  · intro d hd
    change a.earlier = [] ++ _ at hraised
    rw [hraised] at hd
    exact severity_of_mem_raisedOver hd

/-- **What is told at the end.** -/
theorem tells_of_finish (hs : start.feedAll options lines = .ok s) (h : s.finish = .error a) :
    Tells a .noContract lines.length (Text.dropLineEnd (lines.getLast?.getD []))
      (raisedOver options start lines) := by
  have hraised := diagnosed_feedAll options start lines
  rw [hs] at hraised
  obtain ⟨-, rfl⟩ := finish_eq_error_iff.mp h
  refine ⟨rfl, rfl, lineCount_of_feedAll hs, ?_, hraised, ?_⟩
  · change Text.dropLineEnd s.line = _
    rw [line_of_feedAll hs, Text.dropLineEnd_dropLineEnd]
  · intro d hd
    change s.diagnostics = [] ++ _ at hraised
    change d ∈ s.diagnostics at hd
    rw [hraised] at hd
    exact severity_of_mem_raisedOver hd

/-- **When a reading aborts, and what is told.** It aborts at a line exactly if that is the
first one of those that stop a reading. If it aborts at no line, then it is refused at the
end exactly if no line is a contract line. A refusal tells the problem at the line, or at
the last line for a refusal at the end, after all that has been raised before; and what is
raised along the way are the diagnostics of the reading. -/
theorem abort_accounting (options : Options) (lines : List Text) :
    (∀ i, (∃ a, AbortsAt options lines i a) ↔ Stops lines i ∧ ∀ j < i, ¬Stops lines j) ∧
      (∀ i a, AbortsAt options lines i a → readLines options lines = .error a ∧
        ∃ line, lines[i]? = some line ∧
          Tells a
            (if State.after (lines.take (i + 1)) = ⟨.recipe, .contract⟩ then .contractWithoutArrow
              else .noContractYet)
            (i + 1) (Text.dropLineEnd line) (raisedOver options start (lines.take (i + 1)))) ∧
      ((∀ i a, ¬AbortsAt options lines i a) →
        ((∃ a, readLines options lines = .error a) ↔ ∀ p ∈ place lines, p.opens = false) ∧
        ∀ a, readLines options lines = .error a →
          Tells a .noContract lines.length (Text.dropLineEnd (lines.getLast?.getD []))
            (raisedOver options start lines)) ∧
      ∀ i s, start.feedAll options (lines.take i) = .ok s →
        s.diagnostics = raisedOver options start (lines.take i) := by
  refine ⟨fun i => exists_abortsAt_iff, ?_, ?_, ?_⟩
  · intro i a h
    refine ⟨?_, tells_of_abortsAt h⟩
    rw [readLines, (feedAll_of_abortsAt h).2]
  · intro hnone
    have hstops : ∀ i, ¬Stops lines i := by
      intro i
      -- The first line that stops the reading would be one where it aborts.
      induction i using Nat.strongRecOn with
      | ind i ih =>
        intro hi
        obtain ⟨a, ha⟩ := exists_abortsAt_iff.mpr ⟨hi, ih⟩
        exact hnone i a ha
    obtain ⟨s, hs⟩ : ∃ s, start.feedAll options lines = .ok s := by
      have hall := exists_feedAll_of_not_stops options fun j (_ : j < lines.length) => hstops j
      rwa [List.take_length] at hall
    have hread : readLines options lines = s.finish := by rw [readLines, hs]
    rw [hread, ← current_eq_none_iff hs]
    refine ⟨?_, fun a ha => tells_of_finish hs ha⟩
    constructor
    · rintro ⟨a, ha⟩
      exact (finish_eq_error_iff.mp ha).1
    · exact fun hcurrent => ⟨_, finish_eq_error_iff.mpr ⟨hcurrent, rfl⟩⟩
  · intro i s hs
    have hraised := diagnosed_feedAll options start (lines.take i)
    rw [hs] at hraised
    exact hraised

/-- An outline whose second contract has no arrow, and whose headers have no pipe. -/
def arrowlessSample : List Text :=
  ["\"\"\"", "CONTRACT double: int -> int", "\"\"\"", "\"\"\"", "CONTRACT halve: int", "PURPOSE"]

theorem abort_accounting_sample :
    (∃ a, AbortsAt .standard arrowlessSample 4 a ∧
      readLines .standard arrowlessSample = .error a ∧
      Tells a .contractWithoutArrow 5 "CONTRACT halve: int"
        (raisedOver .standard start (arrowlessSample.take 5))) ∧
    ∃ a, readLines .standard [] = .error a ∧ Tells a .noContract 0 [] [] := by
  constructor
  · obtain ⟨habort, htells, -⟩ := abort_accounting .standard arrowlessSample
    obtain ⟨a, ha⟩ := (habort 4).mpr (by decide)
    obtain ⟨hread, line, hline, h⟩ := htells 4 a ha
    obtain rfl := Option.some_inj.mp hline
    exact ⟨a, ha, hread, h⟩
  · obtain ⟨-, -, hend, -⟩ := abort_accounting .standard []
    have hnone : ∀ i a, ¬AbortsAt .standard [] i a := by
      rintro i a ⟨s, line, -, hline, -⟩
      simp at hline
    obtain ⟨hrefused, htells⟩ := hend hnone
    obtain ⟨a, ha⟩ := hrefused.mpr (by simp [place, placeFrom])
    exact ⟨a, ha, htells a ha⟩

end DesignRecipe.Outline

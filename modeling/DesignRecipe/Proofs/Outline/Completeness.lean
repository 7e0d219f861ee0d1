import DesignRecipe.Proofs.Outline.Abort
import DesignRecipe.Proofs.Outline.Locality

/-!
# What a function lacks is reported once

A recipe is closed at one of two places: by the contract line of the next function, and then
what it lacks is reported at the line before that one; or at the end of the outline, and then at
the last line. After it is closed nothing is added to it, so the report tells what the recipe of
the output lacks. No line is reported for anything that is worded like such a report, whatever
values and types stand in it.

The run is followed along the places of the contract lines (`contractsBefore`). All of them but
the first one have closed a recipe, so the reports so far belong to the finished recipes one by
one.
-/

namespace DesignRecipe

/-! ### The wording of a report -/

/-- **Whether a diagnostic reports a function as incomplete**, by its wording. -/
def Diagnostic.reportsIncomplete (d : Diagnostic) : Bool :=
  ("Function '" : Text).isPrefixOf d.message

/-- The problems that a line of a section can be reported for. -/
def Problem.ofSection : Problem → Bool
  | .contractWithoutArrow | .noContractYet | .noContract | .incomplete _ _ | .other _ => false
  | _ => true

/-- No report on a section is worded like one on a function. -/
theorem Problem.isPrefixOf_message_of_ofSection {p : Problem} (h : p.ofSection = true) :
    ("Function '" : Text).isPrefixOf p.message = false := by
  cases p with
  | incomplete name gaps => exact absurd h (by simp [ofSection])
  | other message => exact absurd h (by simp [ofSection])
  | repaired repair => cases repair <;> rfl
  | _ => rfl

namespace Outline

open Session

variable {recognized : List Text} {options : Options}

/-! ### What a section can be reported for -/

theorem Payload.ofSection_of_mem_findings (line : Text) :
    ∀ f ∈ (ofLine line).findings, f.problem.ofSection = true := by
  have hpipe (column : Nat) : ∀ f ∈ [(⟨column, .missingPipe⟩ : Finding)],
      f.problem.ofSection = true := List.forall_mem_singleton.mpr rfl
  rw [ofLine]
  split
  · simp only [withoutPipe]
    split
    · exact hpipe _
    · exact hpipe _
  · exact List.forall_mem_nil _

theorem InOuts.ofSection_of_sideOf (channel : Channel) (column : Nat) (side : Text) :
    ∀ f ∈ (sideOf recognized channel column side).2, f.problem.ofSection = true := by
  simp only [sideOf]
  split
  · exact List.forall_mem_nil _
  · split
    · exact List.forall_mem_nil _
    · exact List.forall_mem_singleton.mpr rfl

theorem InOuts.ofSection_of_apply (r : Recipe) (payload : Payload) :
    ∀ f ∈ (apply recognized r payload).2, f.problem.ofSection = true := by
  simp only [apply, channelsOf]
  split
  · exact List.forall_mem_singleton.mpr rfl
  · exact List.forall_mem_append.mpr ⟨ofSection_of_sideOf _ _ _, ofSection_of_sideOf _ _ _⟩

namespace ExampleLine

theorem ofSection_of_valueAt (slot : Slot) (tag : Text) (start stop : Nat) (token : Option Piece) :
    ∀ f ∈ (valueAt recognized slot tag start stop token).2, f.problem.ofSection = true := by
  cases token with
  | none => exact List.forall_mem_singleton.mpr rfl
  | some t =>
    rw [valueAt]
    split
    · exact List.forall_mem_nil _
    · exact List.forall_mem_singleton.mpr rfl

theorem ofSection_of_valuesAt (start stop position : Nat) (tags : List Text)
    (slots : List (Option Piece)) :
    ∀ f ∈ (valuesAt recognized start stop position tags slots).2, f.problem.ofSection = true := by
  induction tags generalizing position slots with
  | nil => exact List.forall_mem_nil _
  | cons tag tags ih =>
    simp only [valuesAt]
    exact List.forall_mem_append.mpr ⟨ofSection_of_valueAt _ _ _ _ _, ih _ _⟩

theorem ofSection_of_repairsAt (start : Nat) (tokens : Tokens) :
    ∀ f ∈ repairsAt start tokens, f.problem.ofSection = true := by
  intro f hf
  obtain ⟨i, -, rfl⟩ := List.mem_map.mp hf
  rfl

theorem ofSection_of_apply (r : Recipe) (payload : Payload) :
    ∀ f ∈ (apply recognized r payload).2, f.problem.ofSection = true := by
  rw [apply]
  split
  · exact List.forall_mem_nil _
  · simp only [read]
    split
    · exact List.forall_mem_singleton.mpr rfl
    · simp only [argumentsOf, resultOf, List.forall_mem_append]
      exact ⟨⟨ofSection_of_valuesAt _ _ _ _ _, ofSection_of_repairsAt _ _⟩,
        ofSection_of_valueAt _ _ _ _ _, ofSection_of_repairsAt _ _⟩

end ExampleLine

/-- **No section finds a function incomplete.** -/
theorem Session.ofSection_of_readSection (options : Options) (heading : Heading) (line : Text)
    (r : Recipe) : ∀ f ∈ (readSection options heading line r).2, f.problem.ofSection = true := by
  have hpayload := Payload.ofSection_of_mem_findings line
  cases heading with
  | purpose => exact hpayload
  | inOuts => exact List.forall_mem_append.mpr ⟨hpayload, InOuts.ofSection_of_apply r _⟩
  | «example» => exact List.forall_mem_append.mpr ⟨hpayload, ExampleLine.ofSection_of_apply r _⟩
  | none => exact List.forall_mem_nil _
  | contract => exact List.forall_mem_nil _

/-- Among the diagnostics of a section there is no report on a function. -/
theorem filter_reportsIncomplete_findings {findings : List Finding}
    (h : ∀ f ∈ findings, f.problem.ofSection = true) (severity : Severity) (line : Nat)
    (source : Text) :
    (findings.map (Diagnostic.ofFinding severity line source)).filter
      Diagnostic.reportsIncomplete = [] := by
  rw [List.filter_eq_nil_iff, List.forall_mem_map]
  intro f hf hreports
  have hwording := Problem.isPrefixOf_message_of_ofSection (h f hf)
  exact absurd (hreports.symm.trans hwording) (by simp)

/-! ### Where functions end -/

/-- Whether the line at a place is a contract line. -/
def contractAt (lines : List Text) (i : Nat) : Bool :=
  State.after (lines.take (i + 1)) = ⟨.recipe, .contract⟩

/-- The contract lines before a place, by their places. -/
def contractsBefore (lines : List Text) (i : Nat) : List Nat :=
  (List.range i).filter (contractAt lines)

/-- **The lines where the functions of an outline end**, counted from one: for every function the
line before the next contract line, and for the last one the last line. -/
def ends (lines : List Text) : List Nat :=
  (contractsBefore lines lines.length).tail ++ [lines.length]

/-- **The report on a function** that ends at a line. -/
def incompleteAt (lines : List Text) (r : Recipe) (n : Nat) : Diagnostic where
  severity := .ignorable
  line := n
  column := 0
  problem := .incomplete r.name r.gaps
  source := Text.dropLineEnd ((lines.take n).getLast?.getD [])

/-- The reports on functions that end at lines, for those that are not complete. -/
def reportsOn (lines : List Text) (closed : List (Recipe × Nat)) : List Diagnostic :=
  (closed.filter fun x => !x.1.isComplete).map fun x => incompleteAt lines x.1 x.2

variable {lines : List Text} {line : Text} {s t : Session} {i : Nat}

theorem contractsBefore_succ (lines : List Text) (i : Nat) : contractsBefore lines (i + 1) =
    contractsBefore lines i ++ if contractAt lines i then [i] else [] := by
  rw [contractsBefore, contractsBefore, List.range_succ, List.filter_append, List.filter_singleton]
  cases contractAt lines i <;> rfl

theorem lt_of_mem_contractsBefore {n : Nat} (h : n ∈ contractsBefore lines i) : n < i :=
  List.mem_range.mp (List.mem_of_mem_filter h)

/-- What is reported when a recipe is closed. -/
theorem filter_completeness (lines : List Text) (r : Recipe) (n : Nat) :
    (completeness r n (Text.dropLineEnd ((lines.take n).getLast?.getD []))).filter
        Diagnostic.reportsIncomplete = reportsOn lines [(r, n)] := by
  rw [completeness, reportsOn]
  cases hcomplete : r.isComplete with
  | true => simp [hcomplete]
  | false =>
    have hreports : (incompleteAt lines r n).reportsIncomplete = true := rfl
    have hreport : Diagnostic.ofFinding .ignorable n
        (Text.dropLineEnd ((lines.take n).getLast?.getD [])) ⟨0, .incomplete r.name r.gaps⟩ =
          incompleteAt lines r n := by
      rw [Diagnostic.ofFinding, Text.dropLineEnd_dropLineEnd]
      rfl
    simp [hcomplete, hreport, hreports]

/-! ### The run -/

/-- **What has been reported belongs to the finished recipes.** The contract lines so far are one
more than the finished recipes if there are any, and each but the first has closed one of them. -/
structure Reported (lines : List Text) (i : Nat) (s : Session) : Prop where
  building : s.current = none ↔ contractsBefore lines i = []
  length : s.finished.length = (contractsBefore lines i).tail.length
  reports : s.diagnostics.filter Diagnostic.reportsIncomplete =
    reportsOn lines (s.finished.zip (contractsBefore lines i).tail)

/-- What a line that is no contract line raises is no report on a function. -/
theorem Session.filter_raised_of_ne (h : s.state.next line ≠ ⟨.recipe, .contract⟩) :
    (raised options s line).filter Diagnostic.reportsIncomplete = [] := by
  simp only [raised, if_neg h]
  split
  · cases s.current with
    | none => rfl
    | some r =>
      rw [Option.toList_some, List.flatMap_singleton]
      exact filter_reportsIncomplete_findings (ofSection_of_readSection options _ _ r) _ _ _
  · rfl

/-- What a contract line raises is the report on the recipe that it closes. -/
theorem Session.filter_raised_of_contract (h : s.state.next line = ⟨.recipe, .contract⟩)
    (hfeed : s.feed options line = .ok t) :
    (raised options s line).filter Diagnostic.reportsIncomplete =
      s.current.toList.flatMap fun r =>
        (completeness r (max s.lineCount 1) s.line).filter Diagnostic.reportsIncomplete := by
  have harrow := (not_stopped_of_feed hfeed).1 h
  rw [← Contract.exists_read_eq_error_iff, not_exists] at harrow
  simp only [raised, if_pos h, List.filter_append]
  rw [filter_reportsIncomplete_findings (Payload.ofSection_of_mem_findings _), List.nil_append]
  cases hread : Contract.read (Payload.ofLine (Text.dropLineEnd line)) with
  | error f => exact absurd hread (harrow f)
  | ok c => cases s.current <;> simp

/-- **A line keeps what has been reported to the finished recipes.** -/
theorem Reported.step (h : Reported lines i s) (hs : start.feedAll options (lines.take i) = .ok s)
    (hline : lines[i]? = some line) (hfeed : s.feed options line = .ok t) :
    Reported lines (i + 1) t := by
  have hi : i < lines.length := (List.getElem?_eq_some_iff.mp hline).1
  have hstate : s.state.next line = State.after (lines.take (i + 1)) := by
    rw [take_succ_eq_concat hline, State.after_concat, state_of_feedAll hs]
  have hfinished := finished_of_feed hfeed
  have hdiagnostics := congrArg (List.filter Diagnostic.reportsIncomplete)
    (diagnostics_of_feed hfeed)
  rw [List.filter_append, h.reports] at hdiagnostics
  by_cases hcontract : s.state.next line = ⟨.recipe, .contract⟩
  · have hplace : contractAt lines i = true := decide_eq_true (hstate ▸ hcontract)
    obtain ⟨r', hr'⟩ : ∃ r, t.current = some r := by
      refine exists_current_of_feedAll (feedAll_concat_eq_ok.mpr ⟨s, hs, hfeed⟩) (Or.inl ?_)
      rw [(notes_of_feed hfeed).state, hcontract]
    rw [if_pos hcontract] at hfinished
    rw [filter_raised_of_contract hcontract hfeed] at hdiagnostics
    have hbefore := contractsBefore_succ lines i
    rw [if_pos hplace] at hbefore
    cases hr : s.current with
    | none =>
      -- The first contract line closes no recipe.
      have hnone := h.building.mp hr
      rw [hr, Option.toList_none, List.append_nil] at hfinished
      rw [hr, Option.toList_none, List.flatMap_nil, List.append_nil, hnone] at hdiagnostics
      have hlength := h.length
      rw [hnone, List.tail_nil, List.length_nil] at hlength
      rw [hnone, List.nil_append] at hbefore
      refine ⟨?_, ?_, ?_⟩
      · simp [hr', hbefore]
      · rw [hfinished, hlength, hbefore]
        rfl
      · rw [hdiagnostics, hfinished, hbefore]
        rfl
    | some r =>
      have hne : contractsBefore lines i ≠ [] := fun hnone => by
        rw [h.building.mpr hnone] at hr
        exact absurd hr (by simp)
      obtain ⟨first, hfirst⟩ := List.exists_mem_of_ne_nil _ hne
      have hpositive : 0 < i := Nat.zero_lt_of_lt (lt_of_mem_contractsBefore hfirst)
      rw [hr, Option.toList_some] at hfinished
      rw [hr, Option.toList_some, List.flatMap_singleton, lineCount_of_feedAll hs,
        List.length_take_of_le hi.le, max_eq_left hpositive, line_of_feedAll hs,
        filter_completeness] at hdiagnostics
      have htail : (contractsBefore lines (i + 1)).tail =
          (contractsBefore lines i).tail ++ [i] := by
        rw [hbefore, List.tail_append_of_ne_nil hne]
      refine ⟨?_, ?_, ?_⟩
      · simp [hr', hbefore]
      · rw [hfinished, htail, List.length_append, List.length_append, h.length]
        rfl
      · rw [hdiagnostics, hfinished, htail, List.zip_append h.length]
        simp [reportsOn]
  · have hplace : contractAt lines i = false := decide_eq_false (hstate ▸ hcontract)
    have hbefore := contractsBefore_succ lines i
    rw [hplace, if_neg (by simp), List.append_nil] at hbefore
    rw [if_neg hcontract, List.append_nil] at hfinished
    rw [filter_raised_of_ne hcontract, List.append_nil] at hdiagnostics
    have hopens : Placed.opens ⟨line, s.state.next line⟩ = false := decide_eq_false hcontract
    have hsome := Placed.isSome_read options hopens s.current
    rw [← current_eq_read hfeed] at hsome
    refine ⟨?_, ?_, ?_⟩
    · rw [hbefore, ← h.building, ← Option.isNone_iff_eq_none, ← Option.isNone_iff_eq_none,
        ← Option.not_isSome, ← Option.not_isSome, hsome]
    · rw [hfinished, hbefore, h.length]
    · rw [hdiagnostics, hfinished, hbefore]

/-- **Every run reports on the recipes that it finishes.** -/
theorem reported_of_feedAll (hi : i ≤ lines.length)
    (hs : start.feedAll options (lines.take i) = .ok s) : Reported lines i s := by
  induction i generalizing s with
  | zero =>
    rw [List.take_zero, feedAll, Except.ok.injEq] at hs
    rw [← hs]
    exact ⟨iff_of_true rfl rfl, rfl, rfl⟩
  | succ i ih =>
    have hline : lines[i]? = some lines[i] := List.getElem?_eq_getElem hi
    rw [take_succ_eq_concat hline] at hs
    obtain ⟨u, hu, hfeed⟩ := feedAll_concat_eq_ok.mp hs
    exact (ih (Nat.le_of_succ_le hi) hu).step hu hline hfeed

/-- The end of an outline closes the last recipe. -/
theorem Session.diagnostics_of_finish {r : Recipe} {out : Output} (hr : s.current = some r)
    (h : s.finish = .ok out) :
    out.diagnostics = s.diagnostics ++ completeness r s.lineCount s.line := by
  rw [finish, hr] at h
  obtain rfl := Except.ok.inj h
  simp [hr]

/-- Each function ends at a line, and none before the first one. -/
theorem pos_and_le_of_mem_ends {n : Nat} (hne : contractsBefore lines lines.length ≠ [])
    (hn : n ∈ ends lines) : 0 < n ∧ n ≤ lines.length := by
  have hsorted : (contractsBefore lines lines.length).Pairwise (· < ·) :=
    List.pairwise_lt_range.filter _
  obtain ⟨first, rest, hplaces⟩ := List.exists_cons_of_ne_nil hne
  have hbound (m : Nat) (hm : m ∈ first :: rest) : m < lines.length :=
    lt_of_mem_contractsBefore (hplaces ▸ hm)
  rw [hplaces, List.pairwise_cons] at hsorted
  rw [ends, hplaces, List.tail_cons, List.mem_append, List.mem_singleton] at hn
  rcases hn with hrest | rfl
  · exact ⟨Nat.zero_lt_of_lt (hsorted.1 n hrest), (hbound n (List.mem_cons_of_mem _ hrest)).le⟩
  · exact ⟨Nat.zero_lt_of_lt (hbound first List.mem_cons_self), Nat.le_refl _⟩

/-- **What a function lacks is reported exactly once**, and as its recipe is in the output: in
order, each function that is not complete is reported by its name with all that it lacks, on the
line before the next contract line or on the last line, and there is no other diagnostic that is
worded so. -/
theorem filter_reportsIncomplete_of_readLines (options : Options) (lines : List Text) (out : Output)
    (h : readLines options lines = .ok out) :
    out.diagnostics.filter Diagnostic.reportsIncomplete =
        reportsOn lines (out.recipes.zip (ends lines)) ∧
      out.recipes.length = (ends lines).length ∧ ∀ n ∈ ends lines, 0 < n ∧ n ≤ lines.length := by
  obtain ⟨s, hs, hfinish⟩ := readLines_eq_ok.mp h
  obtain ⟨r, hr, hrecipes⟩ := exists_current_of_finish hfinish
  have hreported : Reported lines lines.length s :=
    reported_of_feedAll (Nat.le_refl _) (by rwa [List.take_length])
  refine ⟨?_, ?_, fun n => pos_and_le_of_mem_ends ?_⟩
  · have hlast := filter_completeness lines r lines.length
    rw [List.take_length, ← line_of_feedAll hs] at hlast
    rw [diagnostics_of_finish hr hfinish, List.filter_append, hreported.reports,
      lineCount_of_feedAll hs, hlast, hrecipes, ends, List.zip_append hreported.length]
    simp [reportsOn]
  · rw [hrecipes, ends, List.length_append, List.length_append, hreported.length]
    rfl
  · rw [Ne, ← hreported.building, hr]
    simp

/-- Two functions, one without a body outline and one without anything but its contract, the
first one with a value that looks like a report. -/
def incompleteSample : List Text :=
  ["\"\"\"", "CONTRACT | f : int -> str", "PURPOSE | Names `n`.",
    "EXAMPLE | Function 'g' -> 'x'", "\"\"\"", "\"\"\"", "CONTRACT | g : int -> int", "\"\"\"", ""]

theorem filter_reportsIncomplete_of_readLines_sample :
    ∃ out, readLines .standard incompleteSample = .ok out ∧
      out.diagnostics.filter Diagnostic.reportsIncomplete =
        reportsOn incompleteSample (out.recipes.zip (ends incompleteSample)) ∧
      (out.diagnostics.filter Diagnostic.reportsIncomplete).map (fun d => (d.line, d.message)) =
        [(6, ("Function 'f' is incomplete (missing body outline)" : Text)),
          (9, ("Function 'g' is incomplete (missing purpose, argument names, body outline)" :
            Text))] := by
  obtain ⟨out, hout⟩ : ∃ out, readLines .standard incompleteSample = .ok out := ⟨_, rfl⟩
  obtain ⟨hreports, -, -⟩ :=
    filter_reportsIncomplete_of_readLines .standard incompleteSample out hout
  refine ⟨out, hout, hreports, ?_⟩
  obtain rfl := Except.ok.inj hout
  decide

end Outline

end DesignRecipe

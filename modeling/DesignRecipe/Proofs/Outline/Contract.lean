import DesignRecipe.Proofs.Outline.Abort
import DesignRecipe.Proofs.Outline.Header
import DesignRecipe.Proofs.Outline.Printable
import DesignRecipe.Proofs.Text.Words

/-!
# Contract lines are read exactly

What a contract says is a matter of its words alone. They stand in gaps of blanks and colons
(`Contract.isGap`), and a payload is a contract if its words are a name, the argument types, an
arrow and the result type (`Contract.read_eq_ok_iff`). Nothing else of the payload is looked at. So
one gap may be put in place of another, and colons may stand next to any word.

A contract line ends the recipe under construction and starts one of which nothing is known but
the contract, in one step (`Session.afterContract`).
-/

namespace DesignRecipe.Outline

open Text (isBlank Worded)

variable {payload name returnType : Text} {ws tags : List Text}

namespace Contract

/-! ### The words of a contract -/

/-- **The gaps of a contract** are made of blanks and of colons. -/
def isGap (c : Char) : Bool := isBlank c || c == ':'

/-- A colon is a blank once it is replaced, and the other characters are left alone. -/
theorem isBlank_replaced (c : Char) : isBlank (if c = ':' then ' ' else c) = isGap c := by
  by_cases hc : c = ':'
  · rw [if_pos hc, hc]
    decide
  · simp [isGap, hc]

/-- So gaps become blanks. -/
theorem blank_replaced {gap : Text} (hgap : ∀ c ∈ gap, isGap c = true) :
    Text.Blank (gap.map fun c => if c = ':' then ' ' else c) := by
  intro c hc
  obtain ⟨d, hd, rfl⟩ := List.mem_map.mp hc
  rw [isBlank_replaced, hgap d hd]

/-- **The words of a contract** are those that are laid out in its gaps. -/
theorem map_text_wordsOf_eq_iff :
    (wordsOf payload).map Piece.text = ws ↔ Worded isGap ws payload := by
  have hreads {ws : List Text} (h : Worded isGap ws payload) :
      (wordsOf payload).map Piece.text = ws := by
    refine Text.map_text_words_eq_iff.mpr (h.map isBlank_replaced fun c hc => if_neg ?_)
    rintro rfl
    exact absurd hc (by decide)
  constructor
  · rintro rfl
    obtain ⟨ws, hws⟩ := Text.exists_worded isGap payload
    rwa [hreads hws]
  · exact hreads

/-- The blanks around a payload are no part of its words. -/
theorem worded_trim : Worded isGap ws (Text.trim payload) ↔ Worded isGap ws payload := by
  obtain ⟨before, after, hbefore, hafter, hpayload⟩ := Text.exists_trim payload
  have hgap {t : Text} (ht : Text.Blank t) : ∀ c ∈ t, isGap c = true := fun c hc => by
    simp [isGap, ht c hc]
  rw [← map_text_wordsOf_eq_iff, ← map_text_wordsOf_eq_iff]
  conv_rhs => rw [hpayload, wordsOf, List.map_append, List.map_append,
    Text.map_text_words_pad (blank_replaced (hgap hbefore)) (blank_replaced (hgap hafter))]
  rfl

/-- **One gap may be put in place of another**, and where a gap begins or ends, or the payload
does, more of it may be added. -/
theorem worded_exchange {front gap gap' back : Text} (hgap : ∀ c ∈ gap, isGap c = true)
    (hgap' : ∀ c ∈ gap', isGap c = true) (h : front = [] ∨ back = [] ∨ (gap ≠ [] ∧ gap' ≠ []))
    (hwords : Worded isGap ws (front ++ gap ++ back)) :
    Worded isGap ws (front ++ gap' ++ back) := by
  rw [← map_text_wordsOf_eq_iff, wordsOf, List.map_append, List.map_append] at hwords ⊢
  refine (Text.map_text_words_exchange (blank_replaced hgap) (blank_replaced hgap') ?_).trans hwords
  simpa using h

/-! ### What a contract says -/

/-- **Words are a contract** if they are a name, the argument types, an arrow and the result
type. -/
theorem ofWords?_eq_some_iff {c : Contract} :
    ofWords? ws = some c ↔ ws = c.name :: c.argTypes ++ [arrow, c.returnType] := by
  constructor
  · exact eq_of_ofWords?
  · rintro rfl
    rw [ofWords?, splitLastTwo_append]
    exact if_pos rfl

/-- A lone `None`, in letters of any case, declares that there are no arguments. -/
theorem declaredTypes_eq (tags : List Text) : Recipe.declaredTypes tags =
    if tags.map (List.map Char.toLower) = [['n', 'o', 'n', 'e']] then [] else tags := by
  unfold Recipe.declaredTypes
  split
  · next tag => simp [Text.equalsIgnoringCase]
  · next hmore =>
    have hnone : tags.map (List.map Char.toLower) ≠ [['n', 'o', 'n', 'e']] := by
      intro hlone
      obtain ⟨tag, rfl, -⟩ := List.map_eq_singleton_iff.mp hlone
      exact hmore tag rfl
    rw [if_neg hnone]

/-- **A payload is read as a contract** exactly if its words say so. -/
theorem read_eq_ok_iff {payload : Payload} {c : Contract} :
    read payload = .ok c ↔
      Worded isGap (c.name :: c.argTypes ++ [arrow, c.returnType]) payload.text := by
  rw [← map_text_wordsOf_eq_iff, ← ofWords?_eq_some_iff, read]
  cases ofWords? ((wordsOf payload.text).map Piece.text) <;> simp

end Contract

open Contract (isGap)

/-! ### The line -/

namespace Session

/-- **The reading after a contract line.** The recipe under construction is finished as it is, and
what it lacks is reported at the line before. The new recipe has the line, what the contract says,
and nothing else. -/
def afterContract (s : Session) (line name : Text) (tags : List Text) (returnType : Text) :
    Session :=
  let argTypes := if tags.map (List.map Char.toLower) = [['n', 'o', 'n', 'e']] then [] else tags
  { lineCount := s.lineCount + 1
    line := line
    previousLine := s.line
    state := ⟨.recipe, .contract⟩
    current := some
      { name := name
        argTypes := argTypes
        returnType := returnType
        purpose := none
        argNames := List.replicate argTypes.length none
        returnName := none
        lines := [line]
        inputs := none
        outputs := none
        sideEffects := []
        examples := []
        outline := [] }
    finished := s.finished ++ s.current.toList
    diagnostics :=
      s.diagnostics ++ s.current.toList.flatMap (completeness · (max s.lineCount 1) s.line) }

/-- A line that is read as a contract leads to the reading after a contract line. -/
theorem opened_advance_eq (s : Session) {line : Text}
    (hstate : (s.advance line).state = ⟨.recipe, .contract⟩)
    (hfindings : (Payload.ofLine line).findings = []) (c : Contract) :
    (s.advance line).opened line c = s.afterContract line c.name c.argTypes c.returnType := by
  rw [state_advance] at hstate
  simp only [opened, hfindings, report_nil, afterContract, ← Contract.declaredTypes_eq]
  cases hcurrent : s.current with
  | none => simp [close, advance, hcurrent, hstate, record, Contract.recipe, Recipe.ofContract]
  | some r => simp [close, advance, hcurrent, hstate, record, Contract.recipe, Recipe.ofContract]

section Line

variable {header : Text} {options : Options} {s : Session}

/-- A line with a header that counts is in the section of contracts. -/
theorem state_advance_pipedLine (hheader : IsHeader .contract header)
    (hhonors : s.state.honors .contract = true) (payload : Text) :
    (s.advance (Text.dropLineEnd (pipedLine header payload))).state = ⟨.recipe, .contract⟩ := by
  rw [state_advance_dropLineEnd]
  exact hheader.next_of_honors hhonors _

/-- **A contract line in the right form** is accepted. -/
theorem feed_eq_afterContract (hheader : IsHeader .contract header)
    (hhonors : s.state.honors .contract = true)
    (hwords : Worded isGap (name :: tags ++ [arrow, returnType]) payload) :
    s.feed options (pipedLine header payload) =
      .ok (s.afterContract (Text.dropLineEnd (pipedLine header payload)) name tags
        returnType) := by
  have hstate := state_advance_pipedLine hheader hhonors payload
  obtain ⟨column, hpayload⟩ := payload_dropLineEnd_pipedLine hheader payload
  have hread : Contract.read ⟨Text.trim payload, column, []⟩ = .ok ⟨name, tags, returnType⟩ := by
    rw [Contract.read_eq_ok_iff, Contract.worded_trim]
    exact hwords
  rw [feed, ← opened_advance_eq s hstate (by rw [hpayload]) ⟨name, tags, returnType⟩]
  simp only [dispatch, hstate, readContract, opened, hpayload, report_nil, hread]

/-- **Any other contract line** is refused for its arrow, and nothing else is reported of it. -/
theorem exists_feed_eq_error (options : Options) (hheader : IsHeader .contract header)
    (hhonors : s.state.honors .contract = true)
    (hwords : ¬∃ name tags returnType,
      Worded isGap (name :: tags ++ [arrow, returnType]) payload) :
    ∃ a, s.feed options (pipedLine header payload) = .error a ∧
      a.critical.problem = .contractWithoutArrow ∧ a.earlier = s.diagnostics := by
  have hstate := state_advance_pipedLine hheader hhonors payload
  obtain ⟨column, hpayload⟩ := payload_dropLineEnd_pipedLine hheader payload
  cases hread : Contract.read ⟨Text.trim payload, column, []⟩ with
  | ok c =>
    rw [Contract.read_eq_ok_iff, Contract.worded_trim] at hread
    exact absurd ⟨_, _, _, hread⟩ hwords
  | error f =>
    refine ⟨(s.advance (Text.dropLineEnd (pipedLine header payload))).abort f, ?_,
      Contract.problem_of_read hread, rfl⟩
    simp only [feed, dispatch, hstate, readContract, hpayload, report_nil, hread]

end Line

/-- **A contract line is read exactly.** Where its header counts, a line whose words, laid out
between blanks and colons in any way, are a name, any number of types, an arrow and the result type
is accepted and starts a recipe with these. So it does with one gap in place of another. And a line
whose words are not of this form is refused. -/
theorem feed_contractLine (options : Options) (s : Session) {header : Text}
    (hheader : IsHeader .contract header) (hhonors : s.state.honors .contract = true) :
    (∀ payload name tags returnType,
      Worded isGap (name :: tags ++ [arrow, returnType]) payload →
        s.feed options (pipedLine header payload) =
          .ok (s.afterContract (Text.dropLineEnd (pipedLine header payload)) name tags
            returnType)) ∧
      (∀ front gap gap' back name tags returnType, (∀ c ∈ gap, isGap c = true) →
        (∀ c ∈ gap', isGap c = true) → (front = [] ∨ back = [] ∨ (gap ≠ [] ∧ gap' ≠ [])) →
        Worded isGap (name :: tags ++ [arrow, returnType]) (front ++ gap ++ back) →
          s.feed options (pipedLine header (front ++ gap' ++ back)) =
            .ok (s.afterContract (Text.dropLineEnd (pipedLine header (front ++ gap' ++ back))) name
              tags returnType)) ∧
      ∀ payload, (¬∃ name tags returnType,
        Worded isGap (name :: tags ++ [arrow, returnType]) payload) →
          ∃ a, s.feed options (pipedLine header payload) = .error a ∧
            a.critical.problem = .contractWithoutArrow ∧ a.earlier = s.diagnostics := by
  refine ⟨?_, ?_, ?_⟩
  · intro payload name tags returnType hwords
    exact feed_eq_afterContract hheader hhonors hwords
  · intro front gap gap' back name tags returnType hgap hgap' hends hwords
    exact feed_eq_afterContract hheader hhonors
      (Contract.worded_exchange hgap hgap' hends hwords)
  · intro payload hwords
    exact exists_feed_eq_error options hheader hhonors hwords

/-- A contract line that comes right behind the contract of another function. Its types are a lone
`None`, and colons stand next to its words. -/
theorem feed_contractLine_none :
    ∃ s t r, Session.start.feedAll .standard ["\"\"\"", "CONTRACT | f : int -> bool"] = .ok s ∧
      s.state.honors .contract = true ∧ s.current = some r ∧ r.name = "f" ∧
      IsHeader .contract "Contract" ∧
      Worded isGap ["g", "nOnE", "->", "str"] ": g:  :nOnE :-> str:" ∧
      s.feed .standard "Contract | : g:  :nOnE :-> str:" = .ok t ∧ t.finished = [r] ∧
      t = s.afterContract "Contract | : g:  :nOnE :-> str:" "g" ["nOnE"] "str" ∧
      t.current.map Recipe.argTypes = some [] := by
  obtain ⟨s, r, hs, hhonors, hcurrent, hname, hfinished⟩ :
      ∃ s r, Session.start.feedAll .standard ["\"\"\"", "CONTRACT | f : int -> bool"] = .ok s ∧
        s.state.honors .contract = true ∧ s.current = some r ∧ r.name = "f" ∧ s.finished = [] :=
    ⟨_, _, rfl, rfl, rfl, rfl, rfl⟩
  have hheader : IsHeader .contract "Contract" := ⟨by decide, by decide⟩
  have hwords : Worded isGap ["g", "nOnE", "->", "str"] ": g:  :nOnE :-> str:" :=
    Contract.map_text_wordsOf_eq_iff.mp (by decide)
  obtain ⟨haccepts, -, -⟩ := feed_contractLine .standard s hheader hhonors
  refine ⟨s, _, r, hs, hhonors, hcurrent, hname, hheader, hwords,
    haccepts ": g:  :nOnE :-> str:" "g" ["nOnE"] "str" hwords, ?_, rfl, rfl⟩
  simp [afterContract, hfinished, hcurrent]

end Session

end DesignRecipe.Outline

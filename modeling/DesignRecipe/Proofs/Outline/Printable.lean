import DesignRecipe.Proofs.Outline.Columns
import DesignRecipe.Proofs.Outline.Locality
import DesignRecipe.Proofs.Outline.Replacement
import DesignRecipe.Proofs.Outline.WellFormed
import DesignRecipe.Proofs.Text.Lines
import DesignRecipe.Proofs.Value.Normal

/-!
# What a recipe hands to a test file

A test is written from the name of its function, the values of the example and what is said
about it. The name is a word of the contract, so there is no blank in it; the values have been
coerced, so they are normal; and the explanation is the end of a line, so there is no line feed
in it (`Recipe.Printable`). A printer that writes these parts one by one therefore knows where
its lines end.
-/

namespace DesignRecipe

/-- **An example that can be written**: its values are normal, and what is said about it is one
line. -/
structure Example.Printable (e : Example) : Prop where
  args : ∀ v ∈ e.args, v.Normal
  expected : e.expected.Normal
  explanation : ∀ comment ∈ e.explanation, '\n' ∉ comment

/-- **A recipe whose tests can be written**: its name is a word, and so for its examples. -/
structure Recipe.Printable (r : Recipe) : Prop where
  name : ∀ c ∈ r.name, Text.isBlank c = false
  examples : ∀ e ∈ r.examples, e.Printable

namespace Outline

/-! ### Payloads and contracts -/

/-- **A payload is cut out of its line.** -/
theorem Payload.sublist_ofLine (line : Text) : (ofLine line).text.Sublist line :=
  (standsIn_ofLine line).standsAt.sublist

/-- **The words of a contract** are its name, the types of the arguments, the arrow and the type of
the result. -/
theorem Contract.eq_of_ofWords? {words : List Text} {c : Contract}
    (h : ofWords? words = some c) : words = c.name :: c.argTypes ++ [arrow, c.returnType] := by
  have hsome : ofWords? words ≠ none := by simp [h]
  rw [Ne, ofWords?_eq_none_iff, not_or, not_lt] at hsome
  obtain ⟨front, before, returnType, rfl⟩ :=
    exists_eq_append_pair (Nat.le_of_succ_le hsome.1)
  rw [ofWords?, splitLastTwo_append] at h
  split at h
  · next name argTypes before' returnType' heq =>
    simp only [Option.some_inj, Prod.mk.injEq] at heq
    obtain ⟨rfl, rfl, rfl⟩ := heq
    split at h
    · next harrow =>
      obtain rfl := Option.some_inj.mp h
      rw [harrow]
    · exact absurd h (by simp)
  · exact absurd h (by simp)

/-- So they are words of the payload. -/
theorem Contract.mem_words_of_read {payload : Payload} {c : Contract} (h : read payload = .ok c) :
    ∀ t ∈ c.name :: c.argTypes, ∃ w ∈ wordsOf payload.text, w.text = t := by
  rw [read] at h
  split at h
  · next hwords =>
    obtain rfl := Except.ok.inj h
    intro t ht
    refine List.mem_map.mp ?_
    rw [eq_of_ofWords? hwords]
    exact List.mem_append_left _ ht
  · exact absurd h (by simp)

/-- **The name of a contract is a word.** -/
theorem Contract.isBlank_name_of_read {payload : Payload} {c : Contract}
    (h : read payload = .ok c) : ∀ d ∈ c.name, Text.isBlank d = false := by
  obtain ⟨word, hword, hname⟩ := mem_words_of_read h c.name List.mem_cons_self
  rw [← hname]
  exact Text.isBlank_of_mem_wordsFrom word hword

/-! ### Example lines -/

namespace ExampleLine

variable {recognized : List Text} {payload : Payload} {e : Example}

/-- A value that is missing or not accepted counts as absent, which is a value like others. -/
theorem normal_valueAt (recognized : List Text) (slot : Slot) (tag : Text) (start stop : Nat)
    (token : Option Piece) : (valueAt recognized slot tag start stop token).1.Normal := by
  cases token with
  | none => exact .none
  | some t =>
    rw [valueAt]
    split
    · next hvalue => exact Coercion.normal_of_coerce hvalue
    · exact .none

theorem normal_valuesAt (recognized : List Text) (start stop position : Nat) (tags : List Text)
    (slots : List (Option Piece)) :
    ∀ v ∈ (valuesAt recognized start stop position tags slots).1, v.Normal := by
  induction tags generalizing position slots with
  | nil => exact List.forall_mem_nil _
  | cons tag tags ih =>
    exact List.forall_mem_cons.mpr ⟨normal_valueAt _ _ _ _ _ _, ih _ _⟩

/-- **An example that is read can be written.** -/
theorem printable_of_read {argTypes : List Text} {returnType : Text} (hline : '\n' ∉ payload.text)
    (h : (read recognized argTypes returnType payload).1 = some e) : e.Printable := by
  simp only [read] at h
  split at h
  · exact absurd h (by simp)
  · obtain rfl := Option.some_inj.mp h
    refine ⟨normal_valuesAt _ _ _ _ _ _, normal_valueAt _ _ _ _ _ _, fun comment hcomment => ?_⟩
    simp only [Option.mem_def] at hcomment
    split at hcomment
    · exact absurd hcomment (by simp)
    · obtain rfl := Option.some_inj.mp hcomment
      have hsuffix := List.dropWhile_suffix (· != '#') (l := payload.text)
      exact fun hmem => hline (hsuffix.subset ((Text.isPrefix_dropEndWhile _ _).subset hmem))

end ExampleLine

/-! ### Outlines -/

/-- A line of a section keeps a recipe printable. -/
theorem Session.printable_readSection {r : Recipe} (h : r.Printable) (options : Options)
    (heading : Heading) {text : Text} (htext : '\n' ∉ text) :
    (readSection options heading text r).1.Printable := by
  cases heading with
  | «example» =>
    simp only [readSection, ExampleLine.fst_apply]
    refine ⟨h.name, List.forall_mem_append.mpr ⟨h.examples, fun e he => ?_⟩⟩
    rw [Option.mem_toList, ExampleLine.added] at he
    split at he
    · exact absurd he (by simp)
    · exact ExampleLine.printable_of_read
        (fun hmem => htext ((Payload.sublist_ofLine text).subset hmem)) he
  | _ => exact ⟨h.name, h.examples⟩

/-- Every line keeps the recipe under construction printable. -/
theorem Session.printable_currentAfter (options : Options) (state : State) {text : Text}
    (htext : '\n' ∉ text) {current : Option Recipe} (h : ∀ r ∈ current, r.Printable) :
    ∀ r ∈ currentAfter options state text current, r.Printable :=
  forall_currentAfter
    (fun _ hread => ⟨Contract.isBlank_name_of_read hread, List.forall_mem_nil _⟩)
    (fun _ _ hr => printable_readSection hr options _ htext)
    (fun _ _ hr => ⟨hr.name, hr.examples⟩) h

/-- **The recipes of a text can be written.** -/
theorem forall_printable {options : Options} {text : Text} {out : Output}
    (h : read options text = .ok out) : ∀ r ∈ out.recipes, r.Printable := by
  refine forall_recipes h fun line hline state current hcurrent => ?_
  have hfeed := Text.lineFeed_notMem_of_mem_lines hline
  exact Session.printable_currentAfter options state
    (fun hmem => hfeed ((Text.isPrefix_dropEndWhile _ _).subset hmem)) hcurrent

end Outline

end DesignRecipe

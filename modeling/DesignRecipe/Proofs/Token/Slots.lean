import DesignRecipe.Proofs.Token.Step
import Mathlib.Data.List.ReduceOption

/-!
# Slots and columns

The tokens of a text are laid out in slots, one for each value that is expected, and tokens beyond
the last slot are reported. How many values are expected does not matter to the tokens themselves
(`pieces_tokenize`), so the slots for fewer values are the first ones of the slots for more.

What is left to show is that a token starts at its column. The scan notes the column of every
character as long as no token has begun, and a closing bracket that it drops does not begin one. So
what the scan knows of the next token is only that it does not start before the next character, and
of a token that has begun, where it started and with which character (`Scan.Ordered`).
-/

namespace DesignRecipe

open Text (isBlank)

/-! ### Tokens in their slots -/

/-- There are as many slots as values are expected. -/
theorem length_slots_tokenize (text : Text) (arity : Nat) :
    (tokenize text arity).slots.length = arity := by
  simp only [tokenize, List.length_append, List.length_map, List.length_replicate,
    List.length_take]
  omega

/-- The tokens in the slots are tokens of the text. -/
theorem mem_tokensOf_of_mem_slots {text : Text} {arity : Nat} {t : Piece}
    (h : some t ∈ (tokenize text arity).slots) : t ∈ (tokensOf text).1 := by
  simp only [tokenize, List.mem_append, List.mem_map, Option.some.injEq, exists_eq_right,
    List.mem_replicate, reduceCtorEq, and_false, or_false] at h
  exact List.mem_of_mem_take h

theorem slots_tokenize (text : Text) (arity : Nat) : (tokenize text arity).slots =
    ((tokensOf text).1.take arity).map some ++
      List.replicate (arity - ((tokensOf text).1.take arity).length) none := rfl

theorem issues_tokenize (text : Text) (arity : Nat) : (tokenize text arity).issues =
    (tokensOf text).2 ++
      ((tokensOf text).1.drop arity).map fun t => ⟨t.column, .excess t.text⟩ := rfl

/-- **The slots for fewer values** are the first ones of the slots for more. -/
theorem take_slots_tokenize (text : Text) {few many : Nat} (h : few ≤ many) :
    (tokenize text many).slots.take few = (tokenize text few).slots := by
  rw [slots_tokenize, slots_tokenize, List.take_append, ← List.map_take, List.take_take,
    Nat.min_eq_left h, List.take_replicate]
  simp only [List.length_map, List.length_take]
  congr 2
  omega

/-! ### Tokens too many -/

/-- The token that an issue reports as one too many, if it does. -/
def TokenIssue.excess? (i : TokenIssue) : Option Piece :=
  match i.repair with
  | .excess text => some ⟨i.column, text⟩
  | _ => none

/-- **All tokens**: those in slots, and then those that are reported as too many. -/
def Tokens.pieces (r : Tokens) : List Piece :=
  r.slots.reduceOption ++ r.issues.filterMap TokenIssue.excess?

/-- **What is said of a token too many** begins so, and nothing else does. -/
theorem Repair.isPrefix_message_iff (repair : Repair) :
    "Too many values".toList <+: repair.message ↔ ∃ text, repair = .excess text := by
  cases repair with
  | excess text =>
    have hwords : "Too many values - ignoring ".toList =
        "Too many values".toList ++ " - ignoring ".toList := by decide
    refine iff_of_true ⟨" - ignoring ".toList ++ text, ?_⟩ ⟨text, rfl⟩
    rw [← List.append_assoc, ← hwords]
    rfl
  | unterminated => exact iff_of_false (by decide) nofun
  | unclosed b => exact iff_of_false (by cases b <;> decide) nofun
  | mismatched found expected =>
    exact iff_of_false (by cases found <;> cases expected <;> decide) nofun
  | unmatched b => exact iff_of_false (by cases b <;> decide) nofun

/-- Whether a repair is one of a closing bracket. -/
def Repair.ofCloser : Repair → Bool
  | .mismatched _ _ | .unmatched _ => true
  | _ => false

namespace Scan

theorem ofCloser_of_mem_repairOf {column : Nat} {c : Char} {brackets : List (Nat × Bracket)}
    {i : TokenIssue} (h : i ∈ repairOf column c brackets) : i.repair.ofCloser = true := by
  unfold repairOf at h
  split at h
  · cases h
  · obtain rfl := List.mem_singleton.mp h
    rfl
  · split at h
    · cases h
    · obtain rfl := List.mem_singleton.mp h
      rfl

/-- **Up to the end of the text** nothing is repaired but closing brackets. -/
theorem ofCloser_of_mem_issues_run (text : Text) :
    ∀ i ∈ (empty.run 0 text).issues, i.repair.ofCloser = true := by
  have hkeep (n : Nat) (s : Scan) (c : Char) (u : Scan)
      (h : ∀ i ∈ s.issues, i.repair.ofCloser = true) (_ : text[n]? = some c)
      (hstep : s.step n c = some u) :
      ∀ i ∈ u.issues, i.repair.ofCloser = true := by
    obtain ⟨raised, hissues, rfl | rfl⟩ := issues_of_step hstep <;> rw [hissues]
    · exact h
    · exact List.forall_mem_append.mpr ⟨fun i hi => ofCloser_of_mem_repairOf hi, h⟩
  obtain ⟨n, h, -⟩ := run_induction hkeep (s := empty) (List.forall_mem_nil _)
    (List.drop_zero (l := text))
  exact h

end Scan

/-- The scan reports no token as one too many. -/
theorem excess?_of_mem_tokensOf (text : Text) : ∀ i ∈ (tokensOf text).2, i.excess? = none := by
  have hclosers : ∀ i ∈ (Scan.empty.run 0 text).issues, i.excess? = none := by
    intro i hi
    have hcloser := Scan.ofCloser_of_mem_issues_run text i hi
    obtain ⟨column, repair⟩ := i
    cases repair <;> first | rfl | cases hcloser
  rw [Scan.tokensOf_eq (Scan.steady_run text) rfl]
  refine List.forall_mem_append.mpr ⟨fun i hi => hclosers i (List.mem_reverse.mp hi),
    List.forall_mem_append.mpr ⟨?_, ?_⟩⟩
  · rw [Scan.unterminated]
    split <;> simp [TokenIssue.excess?]
  · exact List.forall_mem_map.mpr fun _ _ => rfl

theorem reduceOption_slots_tokenize (text : Text) (arity : Nat) :
    (tokenize text arity).slots.reduceOption = (tokensOf text).1.take arity := by
  rw [slots_tokenize, List.reduceOption_append, List.reduceOption_replicate_none, List.append_nil,
    List.reduceOption, List.filterMap_map]
  exact List.filterMap_some

/-- **All tokens, whatever number of values is expected.** -/
theorem pieces_tokenize (text : Text) (arity : Nat) :
    (tokenize text arity).pieces = (tokensOf text).1 := by
  have hissues : (tokenize text arity).issues.filterMap TokenIssue.excess? =
      (tokensOf text).1.drop arity := by
    rw [issues_tokenize, List.filterMap_append,
      List.filterMap_eq_nil_iff.mpr (excess?_of_mem_tokensOf text), List.nil_append,
      List.filterMap_map]
    exact List.filterMap_some
  rw [Tokens.pieces, reduceOption_slots_tokenize, hissues, List.take_append_drop]

/-! ### Where tokens start -/

/-- **A token starts at its column**: its first character stands there in the text, and it is no
blank. -/
def StartsIn (text : Text) (t : Piece) : Prop :=
  ∃ c, text[t.column]? = some c ∧ t.text.head? = some c ∧ isBlank c = false

/-- What is put at the end of a token does not change where it starts. -/
theorem StartsIn.append {text t : Text} {column : Nat} (h : StartsIn text ⟨column, t⟩)
    (t' : Text) : StartsIn text ⟨column, t ++ t'⟩ := by
  obtain ⟨c, hc, hhead, hblank⟩ := h
  exact ⟨c, hc, by simp only [List.head?_append, hhead, Option.some_or], hblank⟩

namespace Scan

variable {s u : Scan} {c : Char} {text : Text} {n : Nat}

/-- **The scan after `n` characters of a text**: the tokens start one behind the other, and the next
one starts behind them, where it has begun or not before the next character. -/
structure Ordered (text : Text) (n : Nat) (s : Scan) : Prop where
  steady : Steady s
  tokens : ∀ t ∈ s.tokens, StartsIn text t
  ordered : s.tokens.Pairwise fun later t => t.column < later.column
  before : ∀ t ∈ s.tokens, t.column < if s.current = [] then n else s.start
  current : s.current ≠ [] → StartsIn text ⟨s.start, s.current.reverse⟩ ∧ s.start < n

theorem Ordered.empty (text : Text) : Ordered text 0 empty :=
  ⟨.empty, List.forall_mem_nil _, .nil, List.forall_mem_nil _, fun h => absurd rfl h⟩

theorem Ordered.step (h : Ordered text n s) (hc : text[n]? = some c)
    (hstep : s.step n c = some u) : Ordered text (n + 1) u := by
  have hsteady := h.steady.step hstep
  have hbefore := h.before
  by_cases hcurrent : s.current = []
  · rw [if_pos hcurrent] at hbefore
    obtain ⟨hsame, ⟨hnil, -⟩ | ⟨hbegun, hstart, hblank⟩⟩ := waits_or_begins h.steady hstep hcurrent
    · refine ⟨hsteady, hsame ▸ h.tokens, hsame ▸ h.ordered, ?_, fun hne => absurd hnil hne⟩
      rw [hsame, if_pos hnil]
      exact fun t ht => Nat.lt_succ_of_lt (hbefore t ht)
    · -- The character begins a token at its own column.
      have hne : u.current ≠ [] := by simp [hbegun]
      refine ⟨hsteady, hsame ▸ h.tokens, hsame ▸ h.ordered, ?_, fun _ => ?_⟩
      · rwa [hsame, if_neg hne, hstart]
      · rw [hbegun, hstart]
        exact ⟨⟨c, hc, rfl, hblank⟩, Nat.lt_succ_self n⟩
  · rw [if_neg hcurrent] at hbefore
    obtain ⟨hstarts, hlt⟩ := h.current hcurrent
    rcases goes_on_or_ends hstep hcurrent with
      ⟨hsame, hstart, t, hgrown⟩ | ⟨-, -, -, hnil, hends⟩
    · have hne : u.current ≠ [] := by simp [hgrown, hcurrent]
      refine ⟨hsteady, hsame ▸ h.tokens, hsame ▸ h.ordered, ?_, fun _ => ?_⟩
      · rwa [hsame, if_neg hne, hstart]
      · rw [hgrown, hstart, List.reverse_append]
        exact ⟨hstarts.append _, Nat.lt_succ_of_lt hlt⟩
    · refine ⟨hsteady, ?_, ?_, ?_, fun hne => absurd hnil hne⟩
      · rw [hends]
        exact List.forall_mem_cons.mpr ⟨hstarts, h.tokens⟩
      · rw [hends]
        exact List.pairwise_cons.mpr ⟨hbefore, h.ordered⟩
      · rw [hends, if_pos hnil]
        exact List.forall_mem_cons.mpr ⟨Nat.lt_succ_of_lt hlt,
          fun t ht => Nat.lt_succ_of_lt (Nat.lt_trans (hbefore t ht) hlt)⟩

end Scan

/-- **Every token starts at its column**, and behind the start of the token before it. -/
theorem startsIn_and_pairwise_tokensOf (text : Text) :
    (∀ t ∈ (tokensOf text).1, StartsIn text t) ∧
      (tokensOf text).1.Pairwise fun t next => t.column < next.column := by
  obtain ⟨n, h, -⟩ := Scan.run_induction (fun _ _ _ _ => Scan.Ordered.step) (.empty text)
    (List.drop_zero (l := text))
  have hbefore := h.before
  rw [Scan.tokensOf_eq h.steady rfl]
  split
  · next hcurrent =>
    simpa [List.pairwise_reverse] using And.intro h.tokens h.ordered
  · next hcurrent =>
    rw [if_neg hcurrent] at hbefore
    refine ⟨List.forall_mem_append.mpr ⟨?_, List.forall_mem_singleton.mpr ?_⟩, ?_⟩
    · exact fun t ht => h.tokens t (List.mem_reverse.mp ht)
    · -- What is added at the end of the text comes behind the first character.
      rw [Scan.ended_eq, ← List.append_assoc, List.reverse_append]
      exact (h.current hcurrent).1.append _
    · rw [List.pairwise_append, List.pairwise_reverse]
      refine ⟨h.ordered, List.pairwise_singleton _ _, fun t ht last hlast => ?_⟩
      obtain rfl := List.mem_singleton.mp hlast
      rw [Scan.ended_eq]
      exact hbefore t (List.mem_reverse.mp ht)

/-- **How tokens are laid out.** There are as many slots as values are expected, and the filled ones
come first. The tokens start one behind the other, each at its column, with a character that is no
blank. Those beyond the last slot are reported in order, each once, at their columns and after all
that is repaired. Neither the tokens nor the slots depend on how many more values are expected. -/
theorem slots_of_tokenize (text : Text) (arity : Nat) :
    (tokenize text arity).slots.length = arity ∧
      (∃ (filled : List Piece) (left : Nat),
        (tokenize text arity).slots = filled.map some ++ List.replicate left none) ∧
      (tokenize text arity).pieces.Pairwise (fun t next => t.column < next.column) ∧
      (∀ t ∈ (tokenize text arity).pieces,
        ∃ c, text[t.column]? = some c ∧ t.text.head? = some c ∧ isBlank c = false) ∧
      (∃ repairs, (∀ i ∈ repairs, ¬"Too many values".toList <+: i.repair.message) ∧
        (tokenize text arity).issues = repairs ++
          ((tokenize text arity).pieces.drop arity).map fun t => ⟨t.column, .excess t.text⟩) ∧
      ∀ more, arity ≤ more → (tokenize text more).pieces = (tokenize text arity).pieces ∧
        (tokenize text more).slots.take arity = (tokenize text arity).slots := by
  obtain ⟨hstarts, hordered⟩ := startsIn_and_pairwise_tokensOf text
  simp only [pieces_tokenize]
  refine ⟨length_slots_tokenize text arity, ⟨_, _, slots_tokenize text arity⟩, hordered, hstarts,
    ⟨_, fun i hi hmessage => ?_, issues_tokenize text arity⟩,
    fun more h => ⟨trivial, take_slots_tokenize text h⟩⟩
  obtain ⟨t, hexcess⟩ := i.repair.isPrefix_message_iff.mp hmessage
  have hnone := excess?_of_mem_tokensOf text i hi
  rw [TokenIssue.excess?, hexcess] at hnone
  cases hnone

/-- A closing bracket is dropped before the first token, and the last one is left open. -/
def crowdedText : Text := ") a [b c".toList

theorem slots_of_tokenize_crowdedText :
    ⟨4, "[b,c]".toList⟩ ∈ (tokenize crowdedText 1).pieces ∧ 1 ≤ 2 ∧
      (∃ c, crowdedText[4]? = some c ∧ "[b,c]".toList.head? = some c ∧ isBlank c = false) ∧
      (tokenize crowdedText 2).slots.take 1 = (tokenize crowdedText 1).slots := by
  obtain ⟨-, -, -, hstarts, -, hmore⟩ := slots_of_tokenize crowdedText 1
  have hpiece : ⟨4, "[b,c]".toList⟩ ∈ (tokenize crowdedText 1).pieces := by decide
  exact ⟨hpiece, by decide, hstarts _ hpiece, (hmore 2 (by decide)).2⟩

end DesignRecipe

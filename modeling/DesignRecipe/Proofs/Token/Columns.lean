import DesignRecipe.Proofs.Token.Slots

/-!
# Where repairs are made

A string without its closing quote is repaired at the end of the text. Every other repair names
something that stands in the text (`Repair.named?`): a bracket, or a value too many. It is reported
where that starts, so that the character at its column is the first one of what it names
(`TokenIssue.Located`).

A closing bracket is repaired where it stands. A bracket that is left open is reported only at the
end of the text, and the scan has kept its column till then; so what is kept by every character is
that the repairs and the open brackets are where they say (`Scan.Located`).
-/

namespace DesignRecipe

/-- **What a repair names**: the bracket that its message tells first, or the value. -/
def Repair.named? : Repair → Option Text
  | .unterminated => none
  | .unclosed b => some [b.opener]
  | .mismatched found _ => some [found.closer]
  | .unmatched found => some [found.closer]
  | .excess text => some text

/-- **A repair in its place in a text**: where the text that it names starts, or at the end if it
names none. -/
structure TokenIssue.Located (text : Text) (i : TokenIssue) : Prop where
  named : ∀ t ∈ i.repair.named?, StartsIn text ⟨i.column, t⟩
  last : i.repair.named? = none → i.column = text.length

theorem TokenIssue.Located.of_named {text t : Text} {column : Nat} {repair : Repair}
    (hnamed : repair.named? = some t) (h : StartsIn text ⟨column, t⟩) :
    Located text ⟨column, repair⟩ := by
  refine ⟨fun t' ht' => ?_, fun hnone => ?_⟩
  · obtain rfl := Option.some_inj.mp (hnamed.symm.trans ht')
    exact h
  · rw [hnone] at hnamed
    cases hnamed

theorem StartsIn.lt_length {text : Text} {t : Piece} (h : StartsIn text t) :
    t.column < text.length := by
  obtain ⟨c, hc, -⟩ := h
  exact (List.getElem?_eq_some_iff.mp hc).1

theorem TokenIssue.Located.column_le {text : Text} {i : TokenIssue} (h : i.Located text) :
    i.column ≤ text.length := by
  cases hnamed : i.repair.named? with
  | none => exact (h.last hnamed).le
  | some t => exact (h.named t hnamed).lt_length.le

namespace Scan

variable {text : Text} {n : Nat} {c : Char} {brackets : List (Nat × Bracket)}

/-! ### One character -/

/-- A closing bracket that is repaired stands where it is repaired. -/
theorem located_of_mem_repairOf (hc : text[n]? = some c) :
    ∀ i ∈ repairOf n c brackets, i.Located text := by
  have hstarts (b : Bracket) (hb : Bracket.ofCloser? c = some b) :
      StartsIn text ⟨n, [b.closer]⟩ := by
    obtain rfl := ofCloser?_eq_some_iff.mp hb
    exact ⟨_, hc, rfl, (closer_facts b).1⟩
  intro i hi
  unfold repairOf at hi
  split at hi
  · cases hi
  · next b hb =>
    obtain rfl := List.mem_singleton.mp hi
    exact .of_named rfl (hstarts b hb)
  · next b _ _ _ hb =>
    split at hi
    · cases hi
    · obtain rfl := List.mem_singleton.mp hi
      exact .of_named rfl (hstarts b hb)

/-- A bracket that is opened stands at the column that is kept for it. -/
theorem startsIn_bracketsAfter (hc : text[n]? = some c)
    (h : ∀ b ∈ brackets, StartsIn text ⟨b.1, [b.2.opener]⟩) :
    ∀ b ∈ bracketsAfter n c brackets, StartsIn text ⟨b.1, [b.2.opener]⟩ := by
  unfold bracketsAfter
  split
  · next b hb =>
    obtain rfl := ofOpener?_eq_some_iff.mp hb
    exact List.forall_mem_cons.mpr ⟨⟨_, hc, rfl, (opener_facts b).1⟩, h⟩
  · exact fun b hb => h b (List.mem_of_mem_tail hb)
  · exact h

/-! ### The whole text -/

/-- **The repairs are in their places**, and so are the brackets that are open. -/
structure Located (text : Text) (s : Scan) : Prop where
  issues : ∀ i ∈ s.issues, i.Located text
  brackets : ∀ b ∈ s.brackets, StartsIn text ⟨b.1, [b.2.opener]⟩

theorem Located.step {s u : Scan} (h : s.Located text) (hc : text[n]? = some c)
    (hstep : s.step n c = some u) : u.Located text := by
  refine ⟨?_, ?_⟩
  · obtain ⟨raised, hissues, rfl | rfl⟩ := issues_of_step hstep <;> rw [hissues]
    · exact h.issues
    · exact List.forall_mem_append.mpr ⟨located_of_mem_repairOf hc, h.issues⟩
  · rcases brackets_of_step hstep with hsame | hafter
    · rw [hsame]
      exact h.brackets
    · rw [hafter]
      exact startsIn_bracketsAfter hc h.brackets

theorem located_run (text : Text) : (empty.run 0 text).Located text := by
  obtain ⟨_, h, -⟩ := run_induction (P := fun _ => Located text) (s := empty)
    (fun _ _ _ _ h hc hstep => h.step hc hstep)
    ⟨List.forall_mem_nil _, List.forall_mem_nil _⟩ (List.drop_zero (l := text))
  exact h

end Scan

/-- **Every repair of a text is in its place.** -/
theorem located_of_mem_issues (text : Text) (arity : Nat) :
    ∀ i ∈ (tokenize text arity).issues, i.Located text := by
  have h := Scan.located_run text
  rw [issues_tokenize, Scan.tokensOf_eq (Scan.steady_run text) rfl]
  refine List.forall_mem_append.mpr ⟨List.forall_mem_append.mpr
    ⟨fun i hi => h.issues i (List.mem_reverse.mp hi), List.forall_mem_append.mpr ⟨?_, ?_⟩⟩, ?_⟩
  · rw [Scan.unterminated]
    split
    · exact List.forall_mem_nil _
    · refine List.forall_mem_singleton.mpr ⟨?_, fun _ => rfl⟩
      rintro t ⟨⟩
  · exact List.forall_mem_map.mpr fun b hb => .of_named rfl (h.brackets b hb)
  · -- A value too many is reported where it starts.
    rw [← Scan.tokensOf_eq (Scan.steady_run text) rfl]
    exact List.forall_mem_map.mpr fun t ht => .of_named rfl
      ((startsIn_and_pairwise_tokensOf text).1 t (List.mem_of_mem_drop ht))

/-- **The tokens in the slots** start at their columns. -/
theorem startsIn_of_mem_slots {text : Text} {arity : Nat} {t : Piece}
    (h : some t ∈ (tokenize text arity).slots) : StartsIn text t :=
  (startsIn_and_pairwise_tokensOf text).1 t (mem_tokensOf_of_mem_slots h)

end DesignRecipe

import DesignRecipe.Proofs.Token.Slots

/-!
# Properly nested brackets

The scan keeps the brackets that are open, and it repairs every closing bracket that is not the
expected one. So the text has properly nested brackets (`Nested`) exactly if no bracket is repaired,
as long as nothing in it is a string or a comment, and every token has, whatever the text.

Both are one invariant, for the text without repairs and for the token with them: what has been read
leaves the brackets open that the scan keeps (`Leaves`). In a token brackets count only outside of
strings (`NestedAside`).

Which brackets are left open at the end can be said without the scan (`LeftOpen`): those behind
which, at any point, no more brackets have been closed than opened. A closing bracket closes the
innermost open one even where it is of another kind, so kinds do not matter here.
-/

namespace DesignRecipe

open Text (isBlank)

/-! ### Properly nested brackets -/

/-- **A text whose brackets are properly nested.** -/
inductive Nested : Text → Prop
  | nil : Nested []
  /-- A character that is no bracket. -/
  | plain {c : Char} {t : Text} : Bracket.ofOpener? c = none → Bracket.ofCloser? c = none →
      Nested t → Nested (c :: t)
  /-- Brackets of one kind around properly nested ones. -/
  | bracket (b : Bracket) {t rest : Text} : Nested t → Nested rest →
      Nested (b.opener :: t ++ b.closer :: rest)

/-- **A text whose brackets are properly nested, strings aside**, inside of brackets or outside.
Inside, every quote begins a string, and quotes of its kind stand in it only behind backslashes.
Outside, a quote is a character like any other. -/
inductive NestedAside : Bool → Text → Prop
  | nil {inside : Bool} : NestedAside inside []
  /-- A character that is no bracket. -/
  | plain {inside : Bool} {c : Char} {t : Text} : Bracket.ofOpener? c = none →
      Bracket.ofCloser? c = none → (inside = true → c ≠ '"' ∧ c ≠ '\'') →
      NestedAside inside t → NestedAside inside (c :: t)
  /-- A string inside of brackets. -/
  | string {quote : Char} {body t : Text} : quote = '"' ∨ quote = '\'' →
      Scan.Shielded quote (quote :: body) → NestedAside true t →
      NestedAside true (quote :: body ++ quote :: t)
  /-- Brackets of one kind around properly nested ones. -/
  | bracket {inside : Bool} (b : Bracket) {t rest : Text} : NestedAside true t →
      NestedAside inside rest → NestedAside inside (b.opener :: t ++ b.closer :: rest)

/-- **A token whose brackets are properly nested, strings aside.** It may begin with a string, which
goes to the next double quote. -/
def NestedToken (t : Text) : Prop :=
  NestedAside false t ∨
    ∃ body rest, t = '"' :: body ++ '"' :: rest ∧ '"' ∉ body ∧ NestedAside false rest

section Grammar

variable {inside : Bool} {c : Char} {t t' : Text} {b : Bracket}

theorem NestedAside.append (h : NestedAside inside t) (h' : NestedAside inside t') :
    NestedAside inside (t ++ t') := by
  induction h with
  | nil => exact h'
  | plain hopener hcloser hquote _ ih => exact .plain hopener hcloser hquote (ih h')
  | string hquote hbody _ ih =>
    rw [List.append_assoc, List.cons_append]
    exact .string hquote hbody (ih h')
  | bracket b h _ _ ih =>
    rw [List.append_assoc, List.cons_append]
    exact .bracket b h (ih h')

theorem NestedToken.append (h : NestedToken t) (h' : NestedAside false t') :
    NestedToken (t ++ t') := by
  rcases h with h | ⟨body, rest, rfl, hbody, h⟩
  · exact .inl (h.append h')
  · exact .inr ⟨body, rest ++ t', by simp, hbody, h.append h'⟩

/-- Where there is no quote there is no string to leave aside. -/
theorem NestedAside.nested (h : NestedAside inside t) (hquotes : ∀ c ∈ t, c ≠ '"' ∧ c ≠ '\'') :
    Nested t := by
  induction h with
  | nil => exact .nil
  | plain hopener hcloser _ _ ih =>
    exact .plain hopener hcloser (ih (List.forall_mem_cons.mp hquotes).2)
  | string hquote _ _ _ =>
    obtain ⟨hdouble, hsingle⟩ := hquotes _ List.mem_cons_self
    exact absurd hquote (not_or.mpr ⟨hdouble, hsingle⟩)
  | bracket b _ _ ih ihRest =>
    obtain ⟨hwithin, hrest⟩ := List.forall_mem_append.mp hquotes
    exact .bracket b (ih (List.forall_mem_cons.mp hwithin).2)
      (ihRest (List.forall_mem_cons.mp hrest).2)

theorem NestedToken.nested (h : NestedToken t) (hquotes : ∀ c ∈ t, c ≠ '"' ∧ c ≠ '\'') :
    Nested t := by
  rcases h with h | ⟨body, rest, rfl, -, -⟩
  · exact h.nested hquotes
  · exact absurd rfl (hquotes '"' List.mem_cons_self).1

end Grammar

/-! ### Open brackets -/

namespace Scan

/-- **A text that leaves brackets open**, innermost first: each is followed by what stands properly
nested inside of it, and what stands before the outermost one is properly nested. -/
def Leaves : List Bracket → Text → Prop
  | [], t => NestedToken t
  | b :: outer, t => ∃ before within, t = before ++ b.opener :: within ∧ Leaves outer before ∧
      NestedAside true within

namespace Leaves

variable {kept : List Bracket} {t w : Text} {b : Bracket} {c : Char}
  {brackets : List (Nat × Bracket)} {column : Nat}

theorem append (h : Leaves kept t) (hw : NestedAside (!kept.isEmpty) w) :
    Leaves kept (t ++ w) := by
  cases kept with
  | nil => exact NestedToken.append h hw
  | cons b outer =>
    obtain ⟨before, within, rfl, hbefore, hwithin⟩ := h
    refine ⟨before, within ++ w, ?_, hbefore, hwithin.append hw⟩
    rw [List.append_assoc, List.cons_append]

theorem opener (h : Leaves kept t) (b : Bracket) : Leaves (b :: kept) (t ++ [b.opener]) :=
  ⟨t, [], rfl, h, .nil⟩

theorem closer (h : Leaves (b :: kept) t) : Leaves kept (t ++ [b.closer]) := by
  obtain ⟨before, within, rfl, hbefore, hwithin⟩ := h
  have hbracket : NestedAside (!kept.isEmpty) (b.opener :: within ++ b.closer :: []) :=
    .bracket b hwithin .nil
  simpa using hbefore.append hbracket

/-- **A character outside of strings** leaves the brackets open that the scan keeps. -/
theorem take (h : Leaves (brackets.map Prod.snd) t)
    (hc : ¬((c = '"' ∨ c = '\'') ∧ brackets ≠ [])) :
    Leaves ((bracketsAfter column c brackets).map Prod.snd) (t ++ (taken c brackets).reverse) := by
  unfold bracketsAfter taken
  cases hopener : Bracket.ofOpener? c with
  | some b =>
    obtain rfl := ofOpener?_eq_some_iff.mp hopener
    have hcloser : Bracket.ofCloser? b.opener = none := by cases b <;> rfl
    rw [hcloser]
    exact h.opener b
  | none =>
    cases hcloser : Bracket.ofCloser? c with
    | none =>
      refine h.append (.plain hopener hcloser (fun hinside => ?_) .nil)
      have hne : brackets ≠ [] := by
        rintro rfl
        cases hinside
      exact not_or.mp fun hquote => hc ⟨hquote, hne⟩
    | some b =>
      cases brackets with
      | nil => simpa using h
      | cons bracket outer => exact closer h

/-- What is left open is closed from the inside out. -/
theorem close (h : Leaves kept t) : NestedToken (t ++ kept.map Bracket.closer) := by
  induction kept generalizing t with
  | nil => exact (List.append_nil t).symm ▸ h
  | cons b outer ih => simpa using ih h.closer

end Leaves

/-! ### What has been read of a text -/

variable {s u : Scan} {column n : Nat} {c : Char} {text : Text} {b : Bracket}

/-- **The token leaves the brackets open that the scan keeps**, or it does so up to the string that
the scan is in. -/
def Nests (s : Scan) : Prop :=
  match s.quoting with
  | .outside => Leaves (s.brackets.map Prod.snd) s.current.reverse
  | .top => s.brackets = [] ∧ ∃ body, s.current.reverse = '"' :: body ∧ '"' ∉ body
  | .nested quote => s.brackets ≠ [] ∧ ∃ before body, s.current.reverse = before ++ quote :: body ∧
      Leaves (s.brackets.map Prod.snd) before ∧ Shielded quote (quote :: body)

theorem nests_of_outside (houtside : s.quoting = .outside)
    (h : Leaves (s.brackets.map Prod.snd) s.current.reverse) : Nests s := by
  simpa only [Nests, houtside] using h

theorem Nests.leaves (h : Nests s) (houtside : s.quoting = .outside) :
    Leaves (s.brackets.map Prod.snd) s.current.reverse := by
  simpa only [Nests, houtside] using h

theorem Nests.of_top (h : Nests s) (htop : s.quoting = .top) :
    s.brackets = [] ∧ ∃ body, s.current.reverse = '"' :: body ∧ '"' ∉ body := by
  simpa only [Nests, htop] using h

theorem Nests.of_nested {quote : Char} (h : Nests s) (hnested : s.quoting = .nested quote) :
    s.brackets ≠ [] ∧ ∃ before body, s.current.reverse = before ++ quote :: body ∧
      Leaves (s.brackets.map Prod.snd) before ∧ Shielded quote (quote :: body) := by
  simpa only [Nests, hnested] using h

/-- A character is taken for what it is, behind a text that leaves open what the scan keeps. -/
theorem nests_of_leaves {t : Text} {tokens : List Piece} {start : Nat} {gap : Bool}
    {previous : Option Char} {issues : List TokenIssue} {brackets : List (Nat × Bracket)}
    (h : Leaves (brackets.map Prod.snd) t.reverse) : Nests {
      tokens := tokens, start := start, current := taken c brackets ++ t
      brackets := bracketsAfter column c brackets
      quoting := if (c = '"' ∨ c = '\'') ∧ brackets ≠ [] then .nested c else .outside
      gap := gap, previous := previous, issues := issues } := by
  by_cases hc : (c = '"' ∨ c = '\'') ∧ brackets ≠ []
  · obtain ⟨hopener, hcloser⟩ : Bracket.ofOpener? c = none ∧ Bracket.ofCloser? c = none := by
      rcases hc.1 with rfl | rfl <;> decide
    have hbrackets : bracketsAfter column c brackets = brackets := by
      simp only [bracketsAfter, hopener, hcloser]
    have htaken : taken c brackets = [c] := by
      unfold taken
      rw [hcloser]
    simp only [Nests, if_pos hc, hbrackets, htaken]
    exact ⟨hc.2, t.reverse, [], by simp, h, List.isChain_singleton c⟩
  · refine nests_of_outside (if_neg hc) ?_
    rw [List.reverse_append]
    exact h.take hc

/-- A string goes on with a character that does not end it. -/
theorem Shielded.concat {quote : Char} {t : Text} (h : Shielded quote t)
    (hc : ∀ d ∈ t.getLast?, c = quote → d = '\\') : Shielded quote (t ++ [c]) :=
  List.isChain_append.mpr ⟨h, List.isChain_singleton c, fun d hd e he => by
    obtain rfl := Option.some_inj.mp he
    exact hc d hd⟩

/-- **The string that the scan is in** is closed by the quote that is missing. -/
theorem Nests.leaves_append (h : Nests s) (hs : Steady s) :
    Leaves (s.brackets.map Prod.snd) (s.current.reverse ++ s.missingQuote) := by
  cases hquoting : s.quoting with
  | outside => simpa [missingQuote, hquoting] using h.leaves hquoting
  | top =>
    obtain ⟨hnil, body, hcurrent, hbody⟩ := h.of_top hquoting
    rw [missingQuote, hquoting, hnil, hcurrent]
    exact .inr ⟨body, [], rfl, hbody, .nil⟩
  | nested quote =>
    obtain ⟨hne, before, body, hcurrent, hbefore, hbody⟩ := h.of_nested hquoting
    rw [missingQuote, hquoting, hcurrent, List.append_assoc]
    refine hbefore.append ?_
    rw [show (!(s.brackets.map Prod.snd).isEmpty) = true by simpa using hne]
    exact .string (hs.nested quote hquoting).1 hbody .nil

/-- **The token so far leaves open what the scan keeps** after one more character. -/
theorem Nests.step (h : Nests s) (hs : Steady s) (hstep : s.step column c = some u) : Nests u := by
  cases takes_of_step hstep with
  | quoted hquoting hends =>
    unfold Nests at h ⊢
    dsimp only [push]
    split at h
    · next houtside => exact absurd houtside hquoting
    · next htop =>
      obtain ⟨hnil, body, hcurrent, hbody⟩ := h
      refine ⟨hnil, body ++ [c], by rw [List.reverse_cons, hcurrent, List.cons_append], ?_⟩
      have hc : c ≠ '"' := fun hc => hends (.inl ⟨htop, hc⟩)
      simpa [hbody] using hc.symm
    · next quote hnested =>
      obtain ⟨hne, before, body, hcurrent, hbefore, hbody⟩ := h
      refine ⟨hne, before, body ++ [c], ?_, hbefore, hbody.concat fun d hd hc => ?_⟩
      · rw [List.reverse_cons, hcurrent, List.append_assoc, List.cons_append]
      · -- The last character of the string is the one that the scan has behind it.
        have hprevious : s.previous = some d := by
          rw [(hs.nested quote hnested).2, ← List.getLast?_reverse, hcurrent,
            List.getLast?_append_of_ne_nil _ (List.cons_ne_nil _ _)]
          exact hd
        by_contra hd'
        exact hends (.inr ⟨hc ▸ hnested, by simpa [hprevious] using hd'⟩)
  | unquoted hends =>
    refine nests_of_outside rfl ?_
    dsimp only [push]
    rw [List.reverse_cons, ← missingQuote_of_ends hends]
    exact h.leaves_append hs
  | parted houtside _ hbrackets =>
    rw [endToken_eq]
    refine nests_of_outside houtside ?_
    dsimp only
    rw [hbrackets]
    exact .inl .nil
  | passed houtside _ _ => exact nests_of_outside houtside (h.leaves houtside)
  | opened houtside hbrackets hc hprevious =>
    have hnil : s.current = [] := hs.nil_of_previous houtside hbrackets hprevious
    subst hc
    exact ⟨hbrackets, [], by simp [push, begin, hnil], List.not_mem_nil⟩
  | marked houtside =>
    obtain ⟨gap, hmark⟩ := mark_eq (s.begin column c) column c
    rw [hmark]
    dsimp only [begin]
    rw [houtside]
    exact nests_of_leaves (h.leaves houtside)
  | within houtside _ _ hbrackets =>
    obtain ⟨t, gap, ht, hwithin⟩ := within_eq s column c
    rw [hwithin]
    dsimp only [begin]
    rw [houtside]
    refine nests_of_leaves ?_
    rw [List.reverse_append]
    refine (h.leaves houtside).append ?_
    rcases ht with rfl | rfl
    · exact .nil
    · exact .plain rfl rfl (fun _ => by decide) .nil

/-- **The tokens that are finished** have properly nested brackets. -/
theorem Nests.nestedToken (h : Nests s) (hs : Steady s) (hstep : s.step column c = some u)
    (htokens : ∀ t ∈ s.tokens, NestedToken t.text) : ∀ t ∈ u.tokens, NestedToken t.text := by
  by_cases hcurrent : s.current = []
  · exact (waits_or_begins hs hstep hcurrent).1 ▸ htokens
  · rcases goes_on_or_ends hstep hcurrent with ⟨hsame, -⟩ | ⟨houtside, hnil, -, -, hends⟩
    · exact hsame ▸ htokens
    · have hleaves := h.leaves houtside
      rw [hnil] at hleaves
      rw [hends]
      exact List.forall_mem_cons.mpr ⟨hleaves, htokens⟩

end Scan

/-- **Every token has properly nested brackets, strings aside**, whatever the text. -/
theorem nestedToken_of_mem_tokensOf (text : Text) :
    ∀ t ∈ (tokensOf text).1, NestedToken t.text := by
  obtain ⟨n, ⟨hs, htokens, hnests⟩, -⟩ := Scan.run_induction
    (P := fun _ s => s.Steady ∧ (∀ t ∈ s.tokens, NestedToken t.text) ∧ s.Nests)
    (fun n s c u ⟨hs, htokens, hnests⟩ _ hstep =>
      ⟨hs.step hstep, hnests.nestedToken hs hstep htokens, hnests.step hs hstep⟩)
    ⟨.empty, List.forall_mem_nil _, .inl .nil⟩ (List.drop_zero (l := text))
  rw [Scan.tokensOf_eq hs rfl]
  refine List.forall_mem_append.mpr ⟨fun t ht => htokens t (List.mem_reverse.mp ht), ?_⟩
  split
  · exact List.forall_mem_nil _
  · refine List.forall_mem_singleton.mpr ?_
    have hmissing : (Scan.empty.run 0 text).missingQuote.reverse =
        (Scan.empty.run 0 text).missingQuote := by
      unfold Scan.missingQuote
      split <;> rfl
    have hclosed := (hnests.leaves_append hs).close
    simpa [Scan.ended_eq, hmissing, Function.comp_def] using hclosed

/-! ### Characters of tokens -/

namespace Scan

variable {s u : Scan} {column : Nat} {c : Char} {P : Char → Prop}

theorem forall_mem_taken {brackets : List (Nat × Bracket)} (hcloser : ∀ b : Bracket, P b.closer)
    (hc : P c) : ∀ d ∈ taken c brackets, P d := by
  unfold taken
  split
  · exact List.forall_mem_singleton.mpr hc
  · exact List.forall_mem_nil _
  · exact List.forall_mem_singleton.mpr (hcloser _)

/-- What holds of the characters of a text, of commas and of closing brackets, holds of all
characters that the scan puts into tokens. -/
theorem forall_mem_of_step (hcomma : P ',') (hcloser : ∀ b : Bracket, P b.closer) (hc : P c)
    (htokens : ∀ t ∈ s.tokens, ∀ d ∈ t.text, P d) (hcurrent : ∀ d ∈ s.current, P d)
    (hstep : s.step column c = some u) :
    (∀ t ∈ u.tokens, ∀ d ∈ t.text, P d) ∧ ∀ d ∈ u.current, P d := by
  have hpush : ∀ d ∈ c :: s.current, P d := List.forall_mem_cons.mpr ⟨hc, hcurrent⟩
  have htaken : ∀ d ∈ taken c s.brackets, P d := forall_mem_taken hcloser hc
  cases takes_of_step hstep with
  | quoted | unquoted | opened => exact ⟨htokens, hpush⟩
  | passed => exact ⟨htokens, hcurrent⟩
  | parted =>
    rw [endToken_eq]
    refine ⟨?_, List.forall_mem_nil _⟩
    dsimp only
    split
    · exact htokens
    · exact List.forall_mem_cons.mpr ⟨fun d hd => hcurrent d (List.mem_reverse.mp hd), htokens⟩
  | marked =>
    obtain ⟨gap, hmark⟩ := mark_eq (s.begin column c) column c
    rw [hmark]
    exact ⟨htokens, List.forall_mem_append.mpr ⟨htaken, hcurrent⟩⟩
  | within =>
    obtain ⟨t, gap, ht, hwithin⟩ := within_eq s column c
    rw [hwithin]
    refine ⟨htokens, List.forall_mem_append.mpr ⟨htaken, List.forall_mem_append.mpr ⟨?_, hcurrent⟩⟩⟩
    rcases ht with rfl | rfl
    · exact List.forall_mem_nil _
    · exact List.forall_mem_singleton.mpr hcomma

/-- The quote that closes a string is in the token already. -/
theorem Nests.mem_current (h : Nests s) : ∀ d ∈ s.missingQuote, d ∈ s.current := by
  cases hquoting : s.quoting with
  | outside =>
    rw [missingQuote, hquoting]
    exact List.forall_mem_nil _
  | top =>
    obtain ⟨-, body, hcurrent, -⟩ := h.of_top hquoting
    rw [missingQuote, hquoting, ← List.reverse_reverse s.current, hcurrent]
    simp
  | nested quote =>
    obtain ⟨-, before, body, hcurrent, -⟩ := h.of_nested hquoting
    rw [missingQuote, hquoting, ← List.reverse_reverse s.current, hcurrent]
    simp

end Scan

/-- **What tokens are made of**: characters of the text, commas and closing brackets. -/
theorem forall_mem_of_mem_tokensOf {P : Char → Prop} (hcomma : P ',')
    (hcloser : ∀ b : Bracket, P b.closer) {text : Text} (htext : ∀ c ∈ text, P c) :
    ∀ t ∈ (tokensOf text).1, ∀ c ∈ t.text, P c := by
  obtain ⟨n, ⟨hs, hnests, htokens, hcurrent⟩, -⟩ := Scan.run_induction
    (P := fun _ s => s.Steady ∧ s.Nests ∧ (∀ t ∈ s.tokens, ∀ c ∈ t.text, P c) ∧
      ∀ c ∈ s.current, P c)
    (fun n s c u ⟨hs, hnests, htokens, hcurrent⟩ hc hstep =>
      ⟨hs.step hstep, hnests.step hs hstep, Scan.forall_mem_of_step hcomma hcloser
        (htext c (List.mem_of_getElem? hc)) htokens hcurrent hstep⟩)
    ⟨.empty, .inl .nil, List.forall_mem_nil _, List.forall_mem_nil _⟩ (List.drop_zero (l := text))
  rw [Scan.tokensOf_eq hs rfl]
  refine List.forall_mem_append.mpr ⟨fun t ht => htokens t (List.mem_reverse.mp ht), ?_⟩
  split
  · exact List.forall_mem_nil _
  · refine List.forall_mem_singleton.mpr fun c hc => ?_
    rw [Scan.ended_eq, List.mem_reverse, List.mem_append, List.mem_append] at hc
    rcases hc with hc | hc | hc
    · obtain ⟨b, -, rfl⟩ := List.mem_map.mp (List.mem_reverse.mp hc)
      exact hcloser b.2
    · exact hcurrent c (hnests.mem_current c hc)
    · exact hcurrent c hc

/-! ### Texts without strings -/

namespace Scan

variable {s u : Scan} {column n : Nat} {c : Char} {t text rest : Text} {b : Bracket}

/-- **A character that begins neither a string nor a comment.** -/
def Unquoted (c : Char) : Prop := c ≠ '"' ∧ c ≠ '\'' ∧ c ≠ '#'

theorem Unquoted.step (hc : Unquoted c) (houtside : s.quoting = .outside)
    (hstep : s.step column c = some u) : u.quoting = .outside ∧
      u.brackets = bracketsAfter column c s.brackets ∧
      u.issues = repairOf column c s.brackets ++ s.issues := by
  obtain ⟨w, hw, h⟩ := exists_step_of_unquoted houtside hc column
  rw [hstep] at hw
  exact Option.some_inj.mp hw ▸ h

/-- **Properly nested brackets are read without a repair**, and leave open what was open before. -/
theorem exists_walk_of_nested (h : Nested t) (hchars : ∀ c ∈ t, Unquoted c) (s : Scan)
    (column : Nat) (houtside : s.quoting = .outside) :
    ∃ u, s.walk column t = some u ∧ u.quoting = .outside ∧ u.brackets = s.brackets ∧
      u.issues = s.issues := by
  induction h generalizing s column with
  | nil => exact ⟨s, rfl, houtside, rfl, rfl⟩
  | @plain c t hopener hcloser _ ih =>
    obtain ⟨hc, ht⟩ := List.forall_mem_cons.mp hchars
    obtain ⟨u, hstep, hquoting, hbrackets, hissues⟩ := exists_step_of_unquoted houtside hc column
    obtain ⟨w, hwalk, hw, hwBrackets, hwIssues⟩ := ih ht u (column + 1) hquoting
    refine ⟨w, by rw [walk_cons, hstep, Option.bind_some, hwalk], hw, ?_, ?_⟩
    · rw [hwBrackets, hbrackets]
      simp only [bracketsAfter, hopener, hcloser]
    · rw [hwIssues, hissues, repairOf_of_ofCloser? hcloser, List.nil_append]
  | @bracket b t rest _ _ ih ihRest =>
    obtain ⟨hwithin, hrest⟩ := List.forall_mem_append.mp hchars
    obtain ⟨hopener, ht⟩ := List.forall_mem_cons.mp hwithin
    obtain ⟨hcloser, hrest⟩ := List.forall_mem_cons.mp hrest
    obtain ⟨u, hstep, hquoting, hbrackets, hissues⟩ :=
      exists_step_of_unquoted houtside hopener column
    obtain ⟨v, hwalk, hv, hvBrackets, hvIssues⟩ := ih ht u (column + 1) hquoting
    obtain ⟨w, hstep', hw, hwBrackets, hwIssues⟩ :=
      exists_step_of_unquoted hv hcloser (column + 1 + t.length)
    obtain ⟨z, hwalk', hz, hzBrackets, hzIssues⟩ := ihRest hrest w (column + 1 + t.length + 1) hw
    have hopened : v.brackets = (column, b) :: s.brackets := by
      rw [hvBrackets, hbrackets]
      cases b <;> rfl
    refine ⟨z, ?_, hz, ?_, ?_⟩
    · rw [List.cons_append, walk_cons, hstep, Option.bind_some, walk_append, hwalk,
        Option.bind_some, walk_cons, hstep', Option.bind_some, hwalk']
    · rw [hzBrackets, hwBrackets, hopened]
      cases b <;> rfl
    · rw [hzIssues, hwIssues, hopened, hvIssues, hissues]
      cases b <;> rfl

theorem outside_run (hchars : ∀ c ∈ text, Unquoted c) : (empty.run 0 text).quoting = .outside := by
  have hkeep (n : Nat) (s : Scan) (c : Char) (u : Scan) (houtside : s.quoting = .outside)
      (hc : text[n]? = some c) (hstep : s.step n c = some u) : u.quoting = .outside :=
    ((hchars c (List.mem_of_getElem? hc)).step houtside hstep).1
  obtain ⟨n, houtside, -⟩ := run_induction hkeep (s := empty) rfl (List.drop_zero (l := text))
  exact houtside

/-- **As long as nothing is repaired** the text leaves the brackets open that the scan keeps. -/
theorem leaves_of_run (hchars : ∀ c ∈ text, Unquoted c) (hissues : (empty.run 0 text).issues = []) :
    Leaves ((empty.run 0 text).brackets.map Prod.snd) text := by
  have hkeep (n : Nat) (s : Scan) (c : Char) (u : Scan) (_ : Steady s)
      (h : s.quoting = .outside ∧ Leaves (s.brackets.map Prod.snd) (text.take n))
      (hc : text[n]? = some c) (hstep : s.step n c = some u) (hsame : u.issues = s.issues) :
      u.quoting = .outside ∧ Leaves (u.brackets.map Prod.snd) (text.take (n + 1)) := by
    have hunquoted := hchars c (List.mem_of_getElem? hc)
    obtain ⟨hquoting, hbrackets, hrepair⟩ := hunquoted.step h.1 hstep
    have hnil : repairOf n c s.brackets = [] := List.append_left_eq_self.mp (hrepair ▸ hsame)
    have hleaves : Leaves ((bracketsAfter n c s.brackets).map Prod.snd)
        (text.take n ++ (taken c s.brackets).reverse) :=
      h.2.take fun hquote => hquote.1.elim hunquoted.1 hunquoted.2.1
    rw [taken_of_repairOf_eq_nil hnil] at hleaves
    rw [hbrackets, List.take_add_one, hc]
    exact ⟨hquoting, hleaves⟩
  obtain ⟨n, h, hend⟩ := clean_induction hkeep ⟨rfl, .inl .nil⟩ hissues
  rcases hend with hend | hcomment
  · simpa only [List.take_of_length_le hend] using h.2
  · exact absurd rfl (hchars '#' (List.mem_of_getElem? hcomment)).2.2

end Scan

/-! ### Brackets that are left open -/

/-- How many brackets a text opens. -/
def opens (t : Text) : Nat := t.countP fun c => (Bracket.ofOpener? c).isSome

/-- How many brackets a text closes. -/
def closes (t : Text) : Nat := t.countP fun c => (Bracket.ofCloser? c).isSome

/-- **A bracket is left open**: what is behind it never closes more brackets than it opens. -/
def LeftOpen (text : Text) (column : Nat) (b : Bracket) : Prop :=
  text[column]? = some b.opener ∧
    ∀ n, closes ((text.drop (column + 1)).take n) ≤ opens ((text.drop (column + 1)).take n)

namespace Scan

variable {s : Scan} {column : Nat} {c : Char} {t text rest : Text} {b : Bracket}

/-- How many brackets a text closes that it has not opened itself. -/
def surplus : Text → Nat
  | [] => 0
  | c :: rest =>
    match Bracket.ofOpener? c, Bracket.ofCloser? c with
    | some _, _ => surplus rest - 1
    | none, some _ => surplus rest + 1
    | none, none => surplus rest

theorem surplus_cons (c : Char) (t : Text) : surplus (c :: t) =
    match Bracket.ofOpener? c, Bracket.ofCloser? c with
    | some _, _ => surplus t - 1
    | none, some _ => surplus t + 1
    | none, none => surplus t := rfl

theorem surplus_le_iff {k : Nat} :
    surplus t ≤ k ↔ ∀ n, closes (t.take n) ≤ opens (t.take n) + k := by
  induction t generalizing k with
  | nil => simp [surplus, closes]
  | cons c t ih =>
    have hcons : (∀ n, closes ((c :: t).take n) ≤ opens ((c :: t).take n) + k) ↔
        ∀ n, closes (c :: t.take n) ≤ opens (c :: t.take n) + k :=
      ⟨fun h n => h (n + 1), fun h n => by
        cases n with
        | zero => exact Nat.zero_le _
        | succ n => exact h n⟩
    rw [hcons, surplus_cons]
    cases hopener : Bracket.ofOpener? c with
    | some b =>
      obtain rfl := ofOpener?_eq_some_iff.mp hopener
      have hcloser : Bracket.ofCloser? b.opener = none := by cases b <;> rfl
      have hk : surplus t - 1 ≤ k ↔ surplus t ≤ k + 1 := by omega
      simp only [hk, ih]
      refine forall_congr' fun n => ?_
      simp only [closes, opens, List.countP_cons, hopener, hcloser]
      simp
      omega
    | none =>
      cases hcloser : Bracket.ofCloser? c with
      | none =>
        simp only [ih]
        refine forall_congr' fun n => ?_
        simp [closes, opens, hopener, hcloser]
      | some b =>
        have hcloses (n : Nat) : closes (c :: t.take n) = closes (t.take n) + 1 := by
          simp [closes, hcloser]
        have hopens (n : Nat) : opens (c :: t.take n) = opens (t.take n) := by
          simp [opens, hopener]
        simp only [hcloses, hopens]
        cases k with
        | zero => exact iff_of_false (by omega) fun h => absurd (h 0) (by simp [opens])
        | succ k =>
          simp only [Nat.add_le_add_iff_right, ih]
          exact forall_congr' fun n => by omega

/-- **The brackets that a text opens and leaves open**, innermost first. -/
def openFrom : Nat → Text → List (Nat × Bracket)
  | _, [] => []
  | column, c :: rest =>
    openFrom (column + 1) rest ++
      match Bracket.ofOpener? c with
      | some b => if surplus rest = 0 then [(column, b)] else []
      | none => []

/-- **The brackets that are open at the end** are those that the text has left open, and of those
that were open before, the ones that it has not closed. -/
theorem brackets_run (hchars : ∀ c ∈ rest, Unquoted c) (houtside : s.quoting = .outside) :
    (s.run column rest).brackets = openFrom column rest ++ s.brackets.drop (surplus rest) := by
  induction rest generalizing s column with
  | nil => rfl
  | cons c rest ih =>
    obtain ⟨hc, hrest⟩ := List.forall_mem_cons.mp hchars
    obtain ⟨u, hstep, hquoting, hbrackets, -⟩ := exists_step_of_unquoted houtside hc column
    rw [run, hstep]
    dsimp only
    rw [ih hrest hquoting, hbrackets, openFrom, surplus_cons, List.append_assoc]
    unfold bracketsAfter
    cases hopener : Bracket.ofOpener? c with
    | some b =>
      -- The bracket that the character opens is the first one that the rest would close.
      cases hsurplus : surplus rest with
      | zero => simp
      | succ m => simp
    | none => cases hcloser : Bracket.ofCloser? c <;> simp

/-- Behind a text without strings the scan keeps the brackets that the text has left open. -/
theorem brackets_run_empty (hchars : ∀ c ∈ t, Unquoted c) :
    (empty.run 0 t).brackets = openFrom 0 t := by
  rw [brackets_run hchars rfl]
  simp [empty]

theorem leftOpen_zero : LeftOpen (c :: t) 0 b ↔ c = b.opener ∧ surplus t = 0 := by
  simp only [LeftOpen, List.getElem?_cons_zero, Option.some_inj, List.drop_succ_cons,
    List.drop_zero, ← Nat.le_zero, surplus_le_iff, Nat.add_zero]

theorem leftOpen_succ {position : Nat} :
    LeftOpen (c :: t) (position + 1) b ↔ LeftOpen t position b := Iff.rfl

theorem mem_openFrom_iff {position : Nat} : (position, b) ∈ openFrom column t ↔
    ∃ i, position = column + i ∧ LeftOpen t i b := by
  induction t generalizing column with
  | nil => simp [openFrom, LeftOpen]
  | cons c t ih =>
    have hhere : (position, b) ∈ (match Bracket.ofOpener? c with
        | some b => if surplus t = 0 then [(column, b)] else []
        | none => []) ↔ position = column ∧ LeftOpen (c :: t) 0 b := by
      rw [leftOpen_zero, ← ofOpener?_eq_some_iff]
      cases Bracket.ofOpener? c with
      | none => simp
      | some b' =>
        by_cases hzero : surplus t = 0
        · simp [hzero, eq_comm (a := b)]
        · simp [hzero]
    rw [openFrom, List.mem_append, ih, hhere]
    constructor
    · rintro (⟨i, rfl, hopen⟩ | ⟨rfl, hopen⟩)
      · exact ⟨i + 1, by omega, leftOpen_succ.mpr hopen⟩
      · exact ⟨0, rfl, hopen⟩
    · rintro ⟨i, rfl, hopen⟩
      cases i with
      | zero => exact .inr ⟨rfl, hopen⟩
      | succ i => exact .inl ⟨i, by omega, leftOpen_succ.mp hopen⟩

theorem pairwise_openFrom (column : Nat) (t : Text) :
    (openFrom column t).Pairwise fun inner outer => outer.1 < inner.1 := by
  induction t generalizing column with
  | nil => exact .nil
  | cons c t ih =>
    rw [openFrom, List.pairwise_append]
    refine ⟨ih (column + 1), ?_, ?_⟩
    · split
      · split
        · exact List.pairwise_singleton _ _
        · exact .nil
      · exact .nil
    · rintro ⟨position, b⟩ hinner ⟨position', b'⟩ houter
      obtain ⟨i, rfl, -⟩ := mem_openFrom_iff.mp hinner
      have hcolumn : position' = column := by
        split at houter
        · split at houter <;> simp_all
        · cases houter
      dsimp only
      omega

end Scan

/-! ### Repairs of brackets -/

/-- Whether a repair is one of brackets. -/
def Repair.ofBracket : Repair → Bool
  | .unclosed _ | .mismatched _ _ | .unmatched _ => true
  | _ => false

/-- Whether a repair is one of a bracket that is left open. -/
def Repair.isUnclosed : Repair → Bool
  | .unclosed _ => true
  | _ => false

theorem Repair.of_ofCloser {repair : Repair} (h : repair.ofCloser = true) :
    repair.ofBracket = true ∧ repair.isUnclosed = false := by
  cases repair <;> first | exact ⟨rfl, rfl⟩ | cases h

section Unquoted

variable {text : Text} (hchars : ∀ c ∈ text, Scan.Unquoted c)
include hchars

/-- **Without strings** nothing is repaired but brackets. -/
theorem tokensOf_snd_of_unquoted : (tokensOf text).2 =
    (Scan.empty.run 0 text).issues.reverse ++ Scan.unclosed (Scan.openFrom 0 text) := by
  rw [Scan.tokensOf_eq (Scan.steady_run text) rfl, Scan.brackets_run_empty hchars,
    Scan.unterminated, if_pos (Scan.outside_run hchars), List.nil_append]

theorem forall_ofBracket_iff (arity : Nat) :
    (∀ i ∈ (tokenize text arity).issues, i.repair.ofBracket = false) ↔
      (Scan.empty.run 0 text).issues = [] ∧ Scan.openFrom 0 text = [] := by
  rw [issues_tokenize, tokensOf_snd_of_unquoted hchars]
  constructor
  · intro h
    obtain ⟨⟨hclosers, hopeners⟩, -⟩ := by
      simpa only [List.forall_mem_append] using h
    refine ⟨List.eq_nil_iff_forall_not_mem.mpr fun i hi => ?_,
      List.eq_nil_iff_forall_not_mem.mpr fun b hb => ?_⟩
    · have hcloser := Repair.of_ofCloser (Scan.ofCloser_of_mem_issues_run text i hi)
      rw [hclosers i (List.mem_reverse.mpr hi)] at hcloser
      exact Bool.noConfusion hcloser.1
    · exact Bool.noConfusion (hopeners _ (List.mem_map_of_mem hb))
  · rintro ⟨hissues, hopen⟩
    rw [hissues, hopen]
    exact List.forall_mem_append.mpr ⟨List.forall_mem_nil _, List.forall_mem_map.mpr fun _ _ => rfl⟩

theorem forall_ofBracket_iff_nested (arity : Nat) :
    (∀ i ∈ (tokenize text arity).issues, i.repair.ofBracket = false) ↔ Nested text := by
  rw [forall_ofBracket_iff hchars]
  constructor
  · rintro ⟨hissues, hopen⟩
    have hleaves := Scan.leaves_of_run hchars hissues
    rw [Scan.brackets_run_empty hchars, hopen] at hleaves
    exact NestedToken.nested hleaves fun c hc => ⟨(hchars c hc).1, (hchars c hc).2.1⟩
  · intro hnested
    obtain ⟨u, hwalk, -, hu, hissues⟩ :=
      Scan.exists_walk_of_nested hnested hchars Scan.empty 0 rfl
    rw [← Scan.brackets_run_empty hchars, Scan.run_of_walk hwalk, hu, hissues]
    exact ⟨rfl, rfl⟩

theorem filter_isUnclosed (arity : Nat) :
    (tokenize text arity).issues.filter (·.repair.isUnclosed) =
      Scan.unclosed (Scan.openFrom 0 text) := by
  rw [issues_tokenize, tokensOf_snd_of_unquoted hchars, List.filter_append, List.filter_append,
    List.filter_eq_nil_iff.mpr, List.filter_eq_self.mpr, List.filter_eq_nil_iff.mpr,
    List.nil_append, List.append_nil]
  · exact List.forall_mem_map.mpr fun _ _ => Bool.false_ne_true
  · exact List.forall_mem_map.mpr fun _ _ => rfl
  · intro i hi
    have hcloser := Scan.ofCloser_of_mem_issues_run text i (List.mem_reverse.mp hi)
    simp [(Repair.of_ofCloser hcloser).2]

end Unquoted

/-- **Brackets are repaired exactly where they have to be.** In a text without strings and comments
no bracket is repaired exactly if the brackets of the text are properly nested, and every bracket
that is left open is reported once, at its own column, the innermost one first. Every token has
properly nested brackets, whatever the text, where brackets in strings do not count; without a quote
in the text there are no strings. -/
theorem bracketRepairs_of_tokenize (text : Text) (arity : Nat) :
    ((∀ c ∈ text, c ≠ '"' ∧ c ≠ '\'' ∧ c ≠ '#') →
      ((∀ i ∈ (tokenize text arity).issues, i.repair.ofBracket = false) ↔ Nested text) ∧
      ∃ left : List (Nat × Bracket),
        (tokenize text arity).issues.filter (·.repair.isUnclosed) =
          left.map (fun b => ⟨b.1, .unclosed b.2⟩) ∧
        left.Pairwise (fun inner outer => outer.1 < inner.1) ∧
        ∀ column b, (column, b) ∈ left ↔ LeftOpen text column b) ∧
    ∀ t, some t ∈ (tokenize text arity).slots → NestedToken t.text ∧
      ((∀ c ∈ text, c ≠ '"' ∧ c ≠ '\'') → Nested t.text) := by
  refine ⟨fun hchars => ⟨forall_ofBracket_iff_nested hchars arity, Scan.openFrom 0 text,
    filter_isUnclosed hchars arity, Scan.pairwise_openFrom 0 text, fun column b => ?_⟩,
    fun t ht => ?_⟩
  · simp [Scan.mem_openFrom_iff]
  · have hmem := mem_tokensOf_of_mem_slots ht
    have hnested := nestedToken_of_mem_tokensOf text t hmem
    refine ⟨hnested, fun hquotes => hnested.nested ?_⟩
    exact forall_mem_of_mem_tokensOf (by decide) (fun b => by cases b <;> decide) hquotes t hmem

/-- A closing bracket is dropped, one is replaced, and two brackets are left open. -/
def tangledText : Text := ") [a (b] (c".toList

theorem bracketRepairs_of_tokenize_tangledText :
    (∀ c ∈ tangledText, c ≠ '"' ∧ c ≠ '\'' ∧ c ≠ '#') ∧ ¬Nested tangledText ∧
      LeftOpen tangledText 2 .square ∧
      some ⟨2, "[a,(b),(c)]".toList⟩ ∈ (tokenize tangledText 1).slots ∧
      Nested "[a,(b),(c)]".toList := by
  have hchars : ∀ c ∈ tangledText, c ≠ '"' ∧ c ≠ '\'' ∧ c ≠ '#' := by
    have hall : tangledText.all (fun c => c != '"' && (c != '\'' && c != '#')) = true := by decide
    simpa only [List.all_eq_true, Bool.and_eq_true, bne_iff_ne] using hall
  have hslot : some ⟨2, "[a,(b),(c)]".toList⟩ ∈ (tokenize tangledText 1).slots := by decide
  obtain ⟨hrepairs, htokens⟩ := bracketRepairs_of_tokenize tangledText 1
  obtain ⟨hnested, left, hleft, -, hopen⟩ := hrepairs hchars
  have hissues : (tokenize tangledText 1).issues = [⟨0, .unmatched .round⟩,
      ⟨7, .mismatched .square .round⟩, ⟨9, .unclosed .round⟩, ⟨2, .unclosed .square⟩] := by decide
  refine ⟨hchars, fun h => ?_, (hopen 2 .square).mp ?_, hslot, (htokens _ hslot).2 ?_⟩
  · have hnone := hnested.mpr h ⟨0, .unmatched .round⟩ (hissues ▸ List.mem_cons_self)
    cases hnone
  · have hmem : (⟨2, .unclosed .square⟩ : TokenIssue) ∈
        left.map fun b => (⟨b.1, .unclosed b.2⟩ : TokenIssue) := by
      rw [← hleft, hissues]
      decide
    obtain ⟨⟨column, b⟩, hb, heq⟩ := List.mem_map.mp hmem
    cases heq
    exact hb
  · exact fun c hc => ⟨(hchars c hc).1, (hchars c hc).2.1⟩

end DesignRecipe

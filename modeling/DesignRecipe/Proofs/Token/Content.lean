import DesignRecipe.Proofs.Token.Slots

/-!
# What tokens keep of a text

A text that needs no repair is not lost in its tokens. Blanks are dropped, and inside brackets a
comma may stand for them; all else is copied, once and in order. So the tokens have the content of
the text (`Text.content`), and this is the invariant: what has been written so far has the content
of what has been read so far.

A string that begins a token is kept with its blanks and commas. This is so because a double quote
that begins a token has a blank before it, or nothing (`Scan.Verbatim`). Only behind a closing
bracket that is dropped a token may begin without one, and that is a repair.
-/

namespace DesignRecipe

/-! ### Content -/

namespace Text

/-- **The content of a text**: all of it but blanks and commas. -/
def content (t : Text) : Text := t.filter fun c => !isBlank c && c != ','

@[simp] theorem content_append (t t' : Text) : content (t ++ t') = content t ++ content t' :=
  List.filter_append _ _

theorem content_of_isBlank {c : Char} (h : isBlank c = true) : content [c] = [] := by
  simp [content, h]

end Text

open Text (isBlank content)

namespace Scan

variable {s u : Scan} {column n : Nat} {c : Char} {text t : Text}

/-- What the scan has put into tokens so far. -/
def written (s : Scan) : Text := s.tokens.reverse.flatMap Piece.text ++ s.current.reverse

theorem written_of_current (htokens : u.tokens = s.tokens) (hcurrent : u.current = t ++ s.current) :
    u.written = s.written ++ t.reverse := by
  simp [written, htokens, hcurrent]

theorem written_endToken (s : Scan) : s.endToken.written = s.written := by
  rw [endToken_eq]
  by_cases hcurrent : s.current = []
  · simp [written, hcurrent]
  · simp [written, hcurrent]

/-- **A character without a repair** is written as it is, behind a comma that may be put in between,
or it is a blank and not written at all. -/
theorem content_written_of_step (hstep : s.step column c = some u) (hissues : u.issues = s.issues) :
    content u.written = content s.written ++ content [c] := by
  have hgrow {t : Text} (ht : t = [] ∨ t = [',']) (htokens : u.tokens = s.tokens)
      (hcurrent : u.current = [c] ++ t ++ s.current) :
      content u.written = content s.written ++ content [c] := by
    rw [written_of_current htokens hcurrent]
    rcases ht with rfl | rfl
    · simp
    · simp [content]
  have htaken (h : repairOf column c s.brackets ++ s.issues = s.issues) :
      taken c s.brackets = [c] :=
    taken_of_repairOf_eq_nil (List.append_left_eq_self.mp h)
  cases takes_of_step hstep with
  | quoted | unquoted | opened => exact hgrow (.inl rfl) rfl rfl
  | parted _ hblank =>
    rw [written_endToken, Text.content_of_isBlank hblank, List.append_nil]
    rfl
  | passed _ hblank =>
    rw [Text.content_of_isBlank hblank, List.append_nil]
    rfl
  | marked =>
    obtain ⟨gap, hmark⟩ := mark_eq (s.begin column c) column c
    rw [hmark] at hissues hgrow ⊢
    exact hgrow (.inl rfl) rfl (congrArg (· ++ s.current) (htaken hissues))
  | within =>
    obtain ⟨t, gap, ht, hwithin⟩ := within_eq s column c
    rw [hwithin] at hissues hgrow ⊢
    refine hgrow ht rfl ?_
    rw [List.append_assoc]
    exact congrArg (· ++ (t ++ s.current)) (htaken hissues)

/-- **Without a repair** what has been written has the content of what has been read. -/
theorem content_written_run (h : '#' ∉ text) (hissues : (empty.run 0 text).issues = []) :
    content (empty.run 0 text).written = content text := by
  have hkeep (n : Nat) (s : Scan) (c : Char) (u : Scan) (_ : Steady s)
      (h : content s.written = content (text.take n)) (hc : text[n]? = some c)
      (hstep : s.step n c = some u) (hsame : u.issues = s.issues) :
      content u.written = content (text.take (n + 1)) := by
    rw [content_written_of_step hstep hsame, h, List.take_add_one, hc, Text.content_append]
    rfl
  obtain ⟨n, hread, hend⟩ := clean_induction hkeep rfl hissues
  rcases hend with hend | hcomment
  · rw [hread, List.take_of_length_le hend]
  · exact absurd (List.mem_of_getElem? hcomment) h

end Scan

/-! ### Strings that begin tokens -/

/-- **A string that begins a token** goes to the next double quote, and it is in the text as it is
in the token. -/
def KeepsString (text : Text) (t : Piece) : Prop :=
  t.text.head? = some '"' → ∃ body rest, t.text = '"' :: body ++ '"' :: rest ∧ '"' ∉ body ∧
    '"' :: body ++ ['"'] <+: text.drop t.column

theorem KeepsString.nil (text : Text) (column : Nat) : KeepsString text ⟨column, []⟩ :=
  fun hhead => absurd hhead (by simp)

/-- What is put at the end of a token is no part of the string that begins it. -/
theorem KeepsString.append {text t : Text} {column : Nat} (h : KeepsString text ⟨column, t⟩)
    (ht : t ≠ []) (t' : Text) : KeepsString text ⟨column, t ++ t'⟩ := by
  intro hhead
  dsimp only at hhead
  rw [List.head?_append_of_ne_nil t ht] at hhead
  obtain ⟨body, rest, rfl, hbody, htext⟩ := h hhead
  exact ⟨body, rest ++ t', by simp, hbody, htext⟩

namespace Scan

variable {s u : Scan} {column n : Nat} {c : Char} {text t : Text}

/-- **The scan after `n` characters of a text without a repair**: a token begins behind a blank, and
strings that begin tokens are taken from the text as they are. -/
structure Verbatim (text : Text) (n : Nat) (s : Scan) : Prop where
  waits : s.current = [] → s.previous.all isBlank = true
  tokens : ∀ t ∈ s.tokens, KeepsString text t
  current : s.quoting ≠ .top → KeepsString text ⟨s.start, s.current.reverse⟩
  top : s.quoting = .top → text.drop s.start = s.current.reverse ++ text.drop n ∧
    ∃ body, s.current.reverse = '"' :: body ∧ '"' ∉ body

theorem Verbatim.empty (text : Text) : Verbatim text 0 empty :=
  ⟨fun _ => rfl, List.forall_mem_nil _, fun _ => .nil text 0, Quoting.noConfusion⟩

theorem ne_top_of_outside (h : s.quoting = .outside) : s.quoting ≠ .top := by
  rw [h]
  exact Quoting.noConfusion

/-- A token that has begun goes on outside of the string that may begin it. -/
theorem Verbatim.grow (h : Verbatim text n s) (hs : s.current ≠ []) (hquoting : s.quoting ≠ .top)
    (htokens : u.tokens = s.tokens) (hstart : u.start = s.start)
    (hcurrent : u.current = t ++ s.current) (hquoting' : u.quoting ≠ .top) :
    Verbatim text column u := by
  refine ⟨fun hnil => ?_, htokens ▸ h.tokens, fun _ => ?_, fun htop => absurd htop hquoting'⟩
  · rw [hcurrent] at hnil
    exact absurd (List.append_eq_nil_iff.mp hnil).2 hs
  · rw [hstart, hcurrent, List.reverse_append]
    exact (h.current hquoting).append (by simpa using hs) _

theorem Verbatim.step (h : Verbatim text n s) (hs : Steady s) (hc : text[n]? = some c)
    (hstep : s.step n c = some u) (hissues : u.issues = s.issues) : Verbatim text (n + 1) u := by
  have hdrop : text.drop n = c :: text.drop (n + 1) := by
    obtain ⟨hlt, rfl⟩ := List.getElem?_eq_some_iff.mp hc
    exact List.drop_eq_getElem_cons hlt
  cases takes_of_step hstep with
  | quoted hquoting hends =>
    by_cases htop : s.quoting = .top
    · obtain ⟨htext, body, hcurrent, hbody⟩ := h.top htop
      refine ⟨fun hnil => absurd hnil (List.cons_ne_nil _ _), h.tokens,
        fun hne => absurd htop hne, fun _ => ⟨?_, body ++ [c], ?_, ?_⟩⟩
      · simp [push, htext, hdrop]
      · simp [push, hcurrent]
      · have hne : c ≠ '"' := fun hc => hends (.inl ⟨htop, hc⟩)
        simpa [hbody] using hne.symm
    · exact h.grow (t := [c]) (hs.begun (.inr hquoting)) htop rfl rfl rfl htop
  | unquoted hends =>
    by_cases htop : s.quoting = .top
    · obtain ⟨htext, body, hcurrent, hbody⟩ := h.top htop
      obtain rfl : c = '"' := by simpa [Ends, htop] using hends
      refine ⟨fun hnil => absurd hnil (List.cons_ne_nil _ _), h.tokens,
        fun _ _ => ⟨body, [], ?_, hbody, text.drop (n + 1), ?_⟩, Quoting.noConfusion⟩
      · simp [push, hcurrent]
      · simp [push, htext, hdrop, hcurrent]
    · have hquoting : s.quoting ≠ .outside := by
        rintro houtside
        simp [Ends, houtside] at hends
      exact h.grow (t := [c]) (hs.begun (.inr hquoting)) htop rfl rfl rfl Quoting.noConfusion
  | parted houtside hblank =>
    have hquoting : s.quoting ≠ .top := ne_top_of_outside houtside
    rw [endToken_eq]
    refine ⟨fun _ => hblank, ?_, fun _ => .nil text _, fun htop => absurd htop hquoting⟩
    dsimp only
    split
    · exact h.tokens
    · exact List.forall_mem_cons.mpr ⟨h.current hquoting, h.tokens⟩
  | passed houtside _ hbrackets =>
    have hquoting : s.quoting ≠ .top := ne_top_of_outside houtside
    exact h.grow (t := []) (hs.begun (.inl hbrackets)) hquoting rfl rfl rfl hquoting
  | opened houtside hbrackets hquote hprevious =>
    have hnil : s.current = [] := hs.nil_of_previous houtside hbrackets hprevious
    subst hquote
    refine ⟨fun hnil => absurd hnil (List.cons_ne_nil _ _), h.tokens, fun hne => absurd rfl hne,
      fun _ => ⟨?_, [], ?_, List.not_mem_nil⟩⟩
    · simp [push, begin, hnil, hdrop]
    · simp [push, begin, hnil]
  | marked houtside _ _ hbrackets hquote =>
    have hquoting : s.quoting ≠ .top := ne_top_of_outside houtside
    obtain ⟨gap, hmark⟩ := mark_eq (s.begin n c) n c
    rw [hmark] at hissues ⊢
    have htaken : taken c s.brackets = [c] :=
      taken_of_repairOf_eq_nil (List.append_left_eq_self.mp hissues)
    have hquoting' : (if (c = '"' ∨ c = '\'') ∧ s.brackets ≠ [] then Quoting.nested c
        else s.quoting) ≠ .top := by
      rwa [if_neg fun hnested => hnested.2 hbrackets]
    by_cases hcurrent : s.current = []
    · -- Nothing was repaired, so the token begins behind a blank, and not with a quote.
      have hc : c ≠ '"' := fun hc => hquote ⟨hc, h.waits hcurrent⟩
      refine ⟨fun hnil => ?_, h.tokens, fun _ hhead => ?_, fun htop => absurd htop hquoting'⟩
      · simp [begin, htaken] at hnil
      · simp [begin, htaken, hcurrent, hc] at hhead
    · exact h.grow hcurrent hquoting rfl (by simp [begin, hcurrent]) rfl hquoting'
  | within houtside _ _ hbrackets =>
    have hquoting : s.quoting ≠ .top := ne_top_of_outside houtside
    have hcurrent : s.current ≠ [] := hs.begun (.inl hbrackets)
    obtain ⟨t, gap, -, hwithin⟩ := within_eq s n c
    rw [hwithin]
    refine h.grow hcurrent hquoting rfl (by simp [begin, hcurrent])
      (List.append_assoc _ _ _).symm ?_
    dsimp only
    split
    · exact Quoting.noConfusion
    · exact hquoting

theorem verbatim_run (hissues : (empty.run 0 text).issues = []) :
    ∃ n, Verbatim text n (empty.run 0 text) := by
  obtain ⟨n, h, -⟩ := clean_induction (P := Verbatim text)
    (fun _ _ _ _ hs h hc hstep hsame => h.step hs hc hstep hsame) (.empty text) hissues
  exact ⟨n, h⟩

end Scan

/-! ### Texts without a repair -/

/-- **Where nothing is repaired** nothing is open at the end, and the last token ends as it is. -/
theorem tokensOf_of_issues_eq_nil {text : Text} {s : Scan} (h : (tokensOf text).2 = [])
    (hrun : Scan.empty.run 0 text = s) :
    s.issues = [] ∧ s.quoting = .outside ∧ s.brackets = [] ∧ (tokensOf text).1 =
      s.tokens.reverse ++ if s.current = [] then [] else [⟨s.start, s.current.reverse⟩] := by
  have htokens := Scan.tokensOf_eq (hrun ▸ Scan.steady_run text) hrun
  obtain ⟨hs, hunterminated, hunclosed⟩ :
      s.issues = [] ∧ s.unterminated text.length = [] ∧ Scan.unclosed s.brackets = [] := by
    rw [htokens] at h
    simpa using h
  have houtside : s.quoting = .outside := by
    by_contra hne
    rw [Scan.unterminated, if_neg hne] at hunterminated
    cases hunterminated
  have hbrackets : s.brackets = [] := List.map_eq_nil_iff.mp hunclosed
  have hended : (s.ended text.length).current = s.current := by
    rw [Scan.ended_eq, hbrackets, Scan.missingQuote, houtside]
    rfl
  exact ⟨hs, houtside, hbrackets, by rw [htokens, hended]⟩

/-- **Where nothing is repaired** there is a slot for every token. -/
theorem tokensOf_of_issues_tokenize_eq_nil {text : Text} {arity : Nat}
    (h : (tokenize text arity).issues = []) :
    (tokensOf text).2 = [] ∧ (tokensOf text).1.length ≤ arity := by
  rwa [issues_tokenize, List.append_eq_nil_iff, List.map_eq_nil_iff, List.drop_eq_nil_iff] at h

/-- The slots of a text without a repair have all its tokens. -/
theorem slots_of_issues_eq_nil {text : Text} {arity : Nat} {s : Scan}
    (h : (tokenize text arity).issues = []) (hrun : Scan.empty.run 0 text = s) :
    s.issues = [] ∧ s.quoting = .outside ∧ (tokenize text arity).slots.reduceOption =
      s.tokens.reverse ++ if s.current = [] then [] else [⟨s.start, s.current.reverse⟩] := by
  obtain ⟨hissues, hlength⟩ := tokensOf_of_issues_tokenize_eq_nil h
  obtain ⟨hs, houtside, -, htokens⟩ := tokensOf_of_issues_eq_nil hissues hrun
  refine ⟨hs, houtside, ?_⟩
  rw [reduceOption_slots_tokenize, List.take_of_length_le hlength, htokens]

/-- **The tokens of a text without a repair** have its content, as long as there is no comment, and
a string that begins a token is in the text as it is, with all its blanks and commas. -/
theorem content_of_tokenize {text : Text} {arity : Nat}
    (hissues : (tokenize text arity).issues = []) :
    ('#' ∉ text →
      content ((tokenize text arity).slots.reduceOption.flatMap Piece.text) = content text) ∧
    ∀ t, some t ∈ (tokenize text arity).slots → t.text.head? = some '"' →
      ∃ body rest, t.text = '"' :: body ++ '"' :: rest ∧ '"' ∉ body ∧
        '"' :: body ++ ['"'] <+: text.drop t.column := by
  obtain ⟨hs, houtside, hslots⟩ := slots_of_issues_eq_nil hissues rfl
  refine ⟨fun hcomment => ?_, fun t ht => ?_⟩
  · rw [← Scan.content_written_run hcomment hs, hslots, Scan.written, List.flatMap_append]
    split
    · next hcurrent => simp [hcurrent]
    · simp
  · obtain ⟨n, hverbatim⟩ := Scan.verbatim_run hs
    have hmem := List.reduceOption_mem_iff.mpr ht
    rw [hslots, List.mem_append, List.mem_reverse] at hmem
    suffices hkept : KeepsString text t from hkept
    rcases hmem with hmem | hmem
    · exact hverbatim.tokens t hmem
    · split at hmem
      · cases hmem
      · obtain rfl := List.mem_singleton.mp hmem
        exact hverbatim.current (Scan.ne_top_of_outside houtside)

/-- Blanks and commas in a string, and blanks inside brackets. -/
def spacedText : Text := "\"a, b\"c  [1 (2)]".toList

theorem content_of_tokenize_spacedText :
    (tokenize spacedText 2).issues = [] ∧ '#' ∉ spacedText ∧
      content ((tokenize spacedText 2).slots.reduceOption.flatMap Piece.text) =
        "\"ab\"c[1(2)]".toList ∧
      ∃ body rest, "\"a, b\"c".toList = '"' :: body ++ '"' :: rest ∧ '"' ∉ body ∧
        '"' :: body ++ ['"'] <+: spacedText.drop 0 := by
  have hissues : (tokenize spacedText 2).issues = [] := by decide
  have hcomment : '#' ∉ spacedText := by decide
  have hslot : some ⟨0, "\"a, b\"c".toList⟩ ∈ (tokenize spacedText 2).slots := by decide
  obtain ⟨hcontent, hstring⟩ := content_of_tokenize hissues
  exact ⟨hissues, hcomment, hcontent hcomment, hstring _ hslot rfl⟩

end DesignRecipe

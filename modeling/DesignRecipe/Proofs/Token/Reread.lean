import DesignRecipe.Proofs.Token.Slots

/-!
# Reading a token again

A repaired token is meant to be closed: read again, alone, it is one token without any repair,
and stays as it is. The ground for it is that the scan of a token follows the scan of the text
that the token was taken from. It meets the characters that the first scan has put into the
token, and so it is in the same brackets and in the same string all the time
(`Scan.Mirrors`); what the first scan has dropped or replaced it does not see.

This fails in two places, where the first scan looks at a character that is not in the token.

* A double quote opens a string at the start of a token only if a blank stands before it, and a
  closing bracket that was dropped is no blank (`Misread`). In the token nothing stands before
  the quote, and it does open a string.
* The quote that is added at the end of the text closes the string, whatever stands before it
  (`EndsEscaped`). In the token a backslash may stand there, and the string goes on.
-/

namespace DesignRecipe

open Text (isBlank)

namespace Scan

variable {s u : Scan} {column : Nat} {c d : Char} {text : Text}

/-! ### The scan of a token beside the scan of its text -/

/-- **The scan of a token beside the scan of its text**: nothing but the token so far has been
read, and it has led to the same brackets and the same string. -/
structure Mirrors (s u : Scan) : Prop where
  tokens : u.tokens = []
  start : u.start = 0
  current : u.current = s.current
  kinds : u.brackets.map Prod.snd = s.brackets.map Prod.snd
  quoting : u.quoting = s.quoting
  gap : u.gap = false
  previous : u.previous = s.current.head?
  issues : u.issues = []

/-- **The token so far can be read again**, and this leads to where the scan is. -/
def Rereads (s : Scan) : Prop :=
  ∃ u, empty.walk 0 s.current.reverse = some u ∧ Mirrors s u

/-- A string ends for both scans at once: where a backslash counts, both have it behind them. -/
theorem Mirrors.ends_iff (h : Mirrors s u) (hs : Steady s) : u.Ends c ↔ s.Ends c := by
  rw [Ends, Ends, h.quoting, h.previous]
  refine or_congr_right (and_congr_right fun hnested => ?_)
  rw [(hs.nested c hnested).2]

/-- The scan of the token takes a character for what it is as well, unless it is a quote that
starts the token. -/
theorem Mirrors.step_eq (h : Mirrors s u) (hd : Marks s d) (hfirst : s.current = [] → d ≠ '"') :
    u.step s.current.length d = some (({ u with previous := some d } : Scan).mark
      s.current.length d) := by
  have hquote : ¬(d = '"' ∧ u.previous.all isBlank = true) := by
    rintro ⟨rfl, hall⟩
    rw [h.previous] at hall
    cases hcurrent : s.current with
    | nil => exact hfirst hcurrent rfl
    | cons c t =>
      have hc := hd.last c (by rw [hcurrent]; rfl)
      rw [hcurrent] at hall
      simp [hc] at hall
  have hbegin : u.begin s.current.length d = { u with previous := some d } := by
    by_cases hnil : u.current = []
    · rw [begin_of_nil hnil, ← h.current, hnil, List.length_nil, ← h.start]
    · exact begin_of_ne_nil hnil _ d
  have hseparate : ({ u with previous := some d } : Scan).separate d =
      { u with previous := some d } := by
    rw [separate, if_neg (by simp [h.gap])]
  rw [step_begin (h.quoting.trans hd.outside) hd.blank hd.comment, if_neg hquote, hbegin, hseparate,
    ite_self]

namespace Rereads

/-- What is not seen in the token does not matter. -/
theorem congr (h : Rereads s) (hcurrent : u.current = s.current)
    (hbrackets : u.brackets = s.brackets) (hquoting : u.quoting = s.quoting) : Rereads u := by
  obtain ⟨w, hwalk, hw⟩ := h
  exact ⟨w, by rw [hcurrent, hwalk], hw.tokens, hw.start, hw.current.trans hcurrent.symm,
    by rw [hbrackets, hw.kinds], hw.quoting.trans hquoting.symm, hw.gap,
    by rw [hcurrent, hw.previous], hw.issues⟩

/-- Where no token has begun there is nothing to read again. -/
theorem of_nil (h : Steady s) (hcurrent : s.current = []) : Rereads s := by
  obtain ⟨hbrackets, hquoting⟩ := h.outside_of_nil hcurrent
  have hempty : Rereads empty := ⟨empty, rfl, rfl, rfl, rfl, rfl, rfl, rfl, rfl, rfl⟩
  exact hempty.congr hcurrent hbrackets hquoting

/-- **One more character of the token**, read by the scan of the token where it has got to. -/
theorem snoc (h : Rereads s) (hcurrent : u.current = d :: s.current)
    (hstep : ∀ w, Mirrors s w → ∃ w', w.step s.current.length d = some w' ∧ Mirrors u w') :
    Rereads u := by
  obtain ⟨w, hwalk, hw⟩ := h
  obtain ⟨w', hd, hw'⟩ := hstep w hw
  refine ⟨w', ?_, hw'⟩
  rw [hcurrent, List.reverse_cons, walk_append, hwalk, Option.bind_some, List.length_reverse,
    Nat.zero_add, walk_cons, hd, Option.bind_some, walk_nil]

/-- A closing bracket in the token is the one that was expected, and so it is read as the right
one. -/
theorem closer {outer : List (Nat × Bracket)} {position : Nat} {b : Bracket} (h : Rereads s)
    (hbrackets : s.brackets = (position, b) :: outer) (houtside : s.quoting = .outside)
    (hlast : ∀ c ∈ s.current.head?, isBlank c = false)
    (hcurrent : u.current = b.closer :: s.current) (houter : u.brackets = outer)
    (hquoting : u.quoting = s.quoting) : Rereads u := by
  obtain ⟨hblank, hcomment, -⟩ := closer_facts b
  have hmarks : Marks s b.closer := ⟨houtside, hblank, hcomment, hlast⟩
  refine h.snoc hcurrent fun w hw => ⟨_, hw.step_eq hmarks fun _ => by cases b <;> decide, ?_⟩
  have hkinds := hw.kinds
  rw [hbrackets, List.map_cons, List.map_eq_cons_iff] at hkinds
  obtain ⟨⟨place, kind⟩, within, hwithin, hkind, hkinds⟩ := hkinds
  obtain rfl : kind = b := hkind
  rw [mark_closer (s := { w with previous := some kind.closer }) hwithin hw.gap]
  exact ⟨hw.tokens, hw.start, by rw [hcurrent, ← hw.current]; rfl, by rw [houter, hkinds],
    hw.quoting.trans hquoting.symm, hw.gap, by rw [hcurrent]; rfl, hw.issues⟩

/-- **A character outside of strings** leads the scan of the token on as it leads the scan of the
text. -/
theorem mark (h : Rereads s) (hc : Marks s c) (hfirst : s.current = [] → c ≠ '"') :
    Rereads (s.mark column c) := by
  rw [Scan.mark]
  split
  · next b hopener =>
    refine h.snoc (d := c) rfl fun w hw => ⟨_, hw.step_eq hc hfirst, ?_⟩
    simp only [Scan.mark, hopener]
    exact ⟨hw.tokens, hw.start, congrArg (c :: ·) hw.current, congrArg (b :: ·) hw.kinds,
      hw.quoting, hw.gap, rfl, hw.issues⟩
  · next b _ _ =>
    cases hbrackets : s.brackets with
    | nil =>
      rw [close_nil hbrackets]
      exact h.congr rfl rfl rfl
    | cons bracket outer =>
      obtain ⟨gap, hclose⟩ := exists_close_cons hbrackets column b
      rw [hclose]
      exact h.closer hbrackets hc.outside hc.last rfl rfl rfl
  · next hopener hcloser =>
    split
    · next hnested =>
      refine h.snoc (d := c) rfl fun w hw => ⟨_, hw.step_eq hc hfirst, ?_⟩
      have hwithin : w.brackets ≠ [] := fun hnil =>
        hnested.2 (by simpa [hnil] using hw.kinds.symm)
      simp only [Scan.mark, hopener, hcloser, if_pos (And.intro hnested.1 hwithin)]
      exact ⟨hw.tokens, hw.start, congrArg (c :: ·) hw.current, hw.kinds, rfl, hw.gap, rfl,
        hw.issues⟩
    · next hplain =>
      refine h.snoc (d := c) rfl fun w hw => ⟨_, hw.step_eq hc hfirst, ?_⟩
      have hwithout : ¬((c = '"' ∨ c = '\'') ∧ w.brackets ≠ []) := fun hnested =>
        hplain ⟨hnested.1, fun hnil => hnested.2 (by simpa [hnil] using hw.kinds)⟩
      simp only [Scan.mark, hopener, hcloser, if_neg hwithout]
      exact ⟨hw.tokens, hw.start, congrArg (c :: ·) hw.current, hw.kinds, hw.quoting, hw.gap, rfl,
        hw.issues⟩

/-- A comma that is put in between is read as itself. -/
theorem separate (h : Rereads s) (houtside : s.quoting = .outside)
    (hlast : ∀ d ∈ s.current.head?, isBlank d = false) : Rereads (s.separate c) := by
  have hgap : Rereads { s with gap := false } := h.congr rfl rfl rfl
  have hcomma : Marks { s with gap := false } ',' := ⟨houtside, by decide, by decide, hlast⟩
  obtain ⟨t, rfl | rfl, hseparate⟩ := separate_eq s c <;> rw [hseparate]
  · exact hgap
  · have hmarked : Rereads (Scan.mark { s with gap := false } 0 ',') :=
      hgap.mark hcomma fun _ => by decide
    exact hmarked.congr rfl rfl rfl

/-- **The token goes on being read again**, unless it starts with a quote that opens no string. -/
theorem step (h : Rereads s) (hs : Steady s) (hstep : s.step column c = some u)
    (hcurrent : u.current ≠ [])
    (hfirst : s.current = [] → c = '"' → s.previous.all isBlank = true) : Rereads u := by
  cases takes_of_step hstep with
  | quoted hquoting hends =>
    refine h.snoc (d := c) rfl fun w hw => ⟨_, step_quoted ?_ (mt (hw.ends_iff hs).mp hends) _, ?_⟩
    · rwa [hw.quoting]
    · exact ⟨hw.tokens, hw.start, congrArg (c :: ·) hw.current, hw.kinds, hw.quoting, hw.gap, rfl,
        hw.issues⟩
  | unquoted hends =>
    refine h.snoc (d := c) rfl fun w hw => ⟨_, step_unquoted ((hw.ends_iff hs).mpr hends) _, ?_⟩
    exact ⟨hw.tokens, hw.start, congrArg (c :: ·) hw.current, hw.kinds, rfl, hw.gap, rfl, hw.issues⟩
  | parted houtside hblank hbrackets =>
    rw [endToken_eq] at hcurrent
    exact absurd rfl hcurrent
  | passed houtside hblank hbrackets => exact h.congr rfl rfl rfl
  | opened houtside hbrackets hc hprevious =>
    subst hc
    have hnil : s.current = [] := hs.nil_of_previous houtside hbrackets hprevious
    have hopened : Rereads { empty with current := ['"'], quoting := .top } :=
      ⟨{ empty with current := ['"'], previous := some '"', quoting := .top }, rfl, rfl, rfl, rfl,
        rfl, rfl, rfl, rfl, rfl⟩
    exact hopened.congr (congrArg ('"' :: ·) hnil) hbrackets rfl
  | marked houtside hblank hcomment hbrackets hquote =>
    have hbegin : Rereads (s.begin column c) := h.congr rfl rfl rfl
    exact hbegin.mark (hs.marks houtside hblank hcomment) fun hnil hc =>
      hquote ⟨hc, hfirst hnil hc⟩
  | within houtside hblank hcomment hbrackets =>
    have hbegin : Rereads (s.begin column c) := h.congr rfl rfl rfl
    have hmarks : Marks (s.begin column c) c := hs.marks houtside hblank hcomment
    refine (hbegin.separate houtside hmarks.last).mark hmarks.separate ?_
    obtain ⟨t, -, hseparate⟩ := separate_eq (s.begin column c) c
    rw [hseparate]
    exact fun hnil => absurd (List.append_eq_nil_iff.mp hnil).2 (hs.begun (.inl hbrackets))

end Rereads

/-! ### The end of the text -/

/-- **A quote that is added at the end** closes the string in the token as well, unless a backslash
stands before it. -/
theorem Rereads.closeString (h : Rereads s) (hs : Steady s)
    (hends : ∀ quote, s.quoting = .nested quote → s.previous ≠ some '\\') (column : Nat) :
    Rereads (s.closeString column) := by
  rw [Scan.closeString]
  split
  · exact h
  · next htop =>
    refine h.snoc (d := '"') rfl fun w hw =>
      ⟨_, step_unquoted ((hw.ends_iff hs).mpr (.inl ⟨htop, rfl⟩)) _, ?_⟩
    exact ⟨hw.tokens, hw.start, congrArg ('"' :: ·) hw.current, hw.kinds, rfl, hw.gap, rfl,
      hw.issues⟩
  · next quote hnested =>
    refine h.snoc (d := quote) rfl fun w hw =>
      ⟨_, step_unquoted ((hw.ends_iff hs).mpr (.inr ⟨hnested, hends quote hnested⟩)) _, ?_⟩
    exact ⟨hw.tokens, hw.start, congrArg (quote :: ·) hw.current, hw.kinds, rfl, hw.gap, rfl,
      hw.issues⟩

/-- **Brackets that are added at the end** close what is open in the token as well. -/
theorem Rereads.closeBrackets {brackets : List (Nat × Bracket)}
    (h : Rereads { s with brackets := brackets }) (houtside : s.quoting = .outside)
    (hlast : ∀ c ∈ s.current.head?, isBlank c = false) : Rereads (s.closeBrackets brackets) := by
  induction brackets generalizing s with
  | nil => exact h
  | cons bracket outer ih =>
    refine ih (h.closer rfl houtside hlast rfl rfl rfl) houtside ?_
    simpa [push] using (closer_facts bracket.2).1

/-- The last character is no blank once the string is closed. -/
theorem last_closeString (hs : Steady s) (column : Nat) :
    ∀ c ∈ (s.closeString column).current.head?, isBlank c = false := by
  rw [Scan.closeString]
  split
  · next houtside => exact hs.last houtside
  · simpa [push] using (by decide : isBlank '"' = false)
  · next quote hnested =>
    rcases (hs.nested quote hnested).1 with rfl | rfl
    · simpa [push] using (by decide : isBlank '"' = false)
    · simpa [push] using (by decide : isBlank '\'' = false)

end Scan

/-! ### Tokens -/

/-- **A text is one token as it stands**, and needs no repair. -/
def Closed (t : Text) : Prop := tokenize t 1 = ⟨[some ⟨0, t⟩], []⟩

instance (t : Text) : Decidable (Closed t) := inferInstanceAs (Decidable (_ = _))

/-- **A token that starts with a double quote that opens no string**: a character that is no blank
stands before it in the text. -/
def Misread (text : Text) (t : Piece) : Prop :=
  t.text.head? = some '"' ∧ (text.take t.column).getLast?.all isBlank = false

instance (text : Text) (t : Piece) : Decidable (Misread text t) :=
  inferInstanceAs (Decidable (_ ∧ _))

/-- What is put at the end of a token does not change how it starts. -/
theorem Misread.append {text t : Text} {column : Nat} (h : Misread text ⟨column, t⟩) (t' : Text) :
    Misread text ⟨column, t ++ t'⟩ := by
  refine ⟨?_, h.2⟩
  rw [List.head?_append, h.1]
  rfl

namespace Scan

variable {s u : Scan} {column : Nat} {c d : Char} {text : Text}

/-- **A token that can be read again is closed**, once its brackets and its string are. -/
theorem Rereads.closed (h : Rereads s) (hcurrent : s.current ≠ []) (hquoting : s.quoting = .outside)
    (hbrackets : s.brackets = []) : Closed s.current.reverse := by
  obtain ⟨w, hwalk, hw⟩ := h
  have hnil : w.brackets = [] := by simpa [hbrackets] using hw.kinds
  have hfinish : w.finish s.current.reverse.length =
      { w with tokens := [⟨0, s.current.reverse⟩], current := [] } := by
    rw [finish, Scan.closeString, hw.quoting, hquoting, hnil, Scan.closeBrackets, endToken_eq]
    simp [hw.current, hcurrent, hw.start, hw.tokens, hw.quoting, hquoting]
  have htokensOf : tokensOf s.current.reverse = ([⟨0, s.current.reverse⟩], []) := by
    simp only [tokensOf, run_of_walk hwalk, hfinish, hw.issues]
    rfl
  simp [Closed, tokenize, htokensOf]

/-- **The scan after `n` characters of a text**: every token so far is closed, and the one that has
begun can be read again, unless they are misread. -/
structure Faithful (text : Text) (n : Nat) (s : Scan) : Prop where
  steady : Steady s
  previous : s.previous = (text.take n).getLast?
  tokens : ∀ t ∈ s.tokens, Misread text t ∨ Closed t.text
  current : Misread text ⟨s.start, s.current.reverse⟩ ∨ Rereads s

theorem Faithful.empty (text : Text) : Faithful text 0 empty :=
  ⟨.empty, rfl, List.forall_mem_nil _, .inr (.of_nil .empty rfl)⟩

theorem Faithful.step {n : Nat} (h : Faithful text n s) (hc : text[n]? = some c)
    (hstep : s.step n c = some u) : Faithful text (n + 1) u := by
  have hsteady := h.steady.step hstep
  have hprevious : u.previous = (text.take (n + 1)).getLast? := by
    rw [previous_of_step hstep, List.take_add_one, hc]
    simp
  by_cases hcurrent : s.current = []
  · obtain ⟨htokens, ⟨hnil, -⟩ | ⟨hbegun, hstart, -⟩⟩ :=
      waits_or_begins h.steady hstep hcurrent
    · exact ⟨hsteady, hprevious, htokens ▸ h.tokens, .inr (.of_nil hsteady hnil)⟩
    · refine ⟨hsteady, hprevious, htokens ▸ h.tokens, ?_⟩
      -- The token is misread from its first character on, or it never is.
      by_cases hfirst : c = '"' ∧ s.previous.all isBlank = false
      · refine .inl ⟨by rw [hbegun, hfirst.1]; rfl, ?_⟩
        rw [hstart, ← h.previous]
        exact hfirst.2
      · have hne : u.current ≠ [] := by
          rw [hbegun]
          exact List.cons_ne_nil _ _
        refine .inr ((Rereads.of_nil h.steady hcurrent).step h.steady hstep hne ?_)
        exact fun _ hc => by simpa using mt (And.intro hc) hfirst
  · rcases goes_on_or_ends hstep hcurrent with
      ⟨htokens, hstart, t, hgrown⟩ | ⟨houtside, hbrackets, -, hnil, htokens⟩
    · refine ⟨hsteady, hprevious, htokens ▸ h.tokens, ?_⟩
      rcases h.current with hmisread | hreads
      · rw [hstart, hgrown, List.reverse_append]
        exact .inl (hmisread.append _)
      · have hne : u.current ≠ [] := by
          rw [hgrown]
          exact List.append_ne_nil_of_right_ne_nil _ hcurrent
        exact .inr (hreads.step h.steady hstep hne fun hnil => absurd hnil hcurrent)
    · -- A blank has ended the token, outside of everything, so it is closed as it stands.
      refine ⟨hsteady, hprevious, ?_, .inr (.of_nil hsteady hnil)⟩
      rw [htokens]
      refine List.forall_mem_cons.mpr ⟨?_, h.tokens⟩
      exact h.current.imp_right fun hreads => hreads.closed hcurrent houtside hbrackets

/-- **Where a token may start**: behind a blank, or else behind a closing bracket that was dropped
and is reported. -/
def Parted (text : Text) (issues : List TokenIssue) (n : Nat) : Prop :=
  (text.take n).getLast?.all isBlank = true ∨ ∃ b, ⟨n - 1, .unmatched b⟩ ∈ issues

/-- **The starts of tokens after `n` characters of a text**, and the start of the next one, if none
has begun. -/
structure Spaced (text : Text) (n : Nat) (s : Scan) : Prop where
  tokens : ∀ t ∈ s.tokens, Parted text s.issues t.column
  current : Parted text s.issues (if s.current = [] then n else s.start)

theorem Spaced.empty (text : Text) : Spaced text 0 empty :=
  ⟨List.forall_mem_nil _, .inl rfl⟩

theorem Spaced.step {n : Nat} (h : Spaced text n s) (hs : Steady s) (hc : text[n]? = some c)
    (hstep : s.step n c = some u) : Spaced text (n + 1) u := by
  have hlast : (text.take (n + 1)).getLast? = some c := by
    rw [List.take_add_one, hc]
    simp
  obtain ⟨raised, hissues, -⟩ := issues_of_step hstep
  have hkeep : ∀ m, Parted text s.issues m → Parted text u.issues m := fun m hm =>
    hm.imp_right fun ⟨b, hb⟩ => ⟨b, hissues ▸ List.mem_append_right _ hb⟩
  have htokens : ∀ t ∈ s.tokens, Parted text u.issues t.column := fun t ht =>
    hkeep _ (h.tokens t ht)
  have hcurrent' := hkeep _ h.current
  by_cases hcurrent : s.current = []
  · rw [if_pos hcurrent] at hcurrent'
    obtain ⟨hsame, ⟨hnil, hwaits⟩ | ⟨hbegun, hstart, -⟩⟩ := waits_or_begins hs hstep hcurrent
    · refine ⟨hsame ▸ htokens, ?_⟩
      rw [if_pos hnil, Parted, hlast, Nat.add_sub_cancel]
      exact hwaits.imp_left id
    · exact ⟨hsame ▸ htokens, by rwa [if_neg (by simp [hbegun]), hstart]⟩
  · rw [if_neg hcurrent] at hcurrent'
    rcases goes_on_or_ends hstep hcurrent with
      ⟨hsame, hstart, t, hgrown⟩ | ⟨-, -, hblank, hnil, hends⟩
    · have hne : u.current ≠ [] := by
        rw [hgrown]
        exact List.append_ne_nil_of_right_ne_nil _ hcurrent
      exact ⟨hsame ▸ htokens, by rwa [if_neg hne, hstart]⟩
    · refine ⟨?_, ?_⟩
      · rw [hends]
        exact List.forall_mem_cons.mpr ⟨hcurrent', htokens⟩
      · rw [if_pos hnil]
        exact .inl (by rw [hlast]; exact hblank)

/-! ### What is left at the end -/

/-- **A token that ends with the text is closed**, unless a backslash stands at its end in a string
in brackets. -/
theorem Rereads.closed_ended (h : Rereads s) (hs : Steady s) (hcurrent : s.current ≠ [])
    (hends : ∀ quote, s.quoting = .nested quote → s.previous ≠ some '\\') (length : Nat) :
    Closed (s.ended length).current.reverse := by
  have hstring := closeString_eq s length
  have houtside : (s.closeString length).quoting = .outside := by rw [hstring]
  have hended := ended_eq s length
  have hread : Rereads (s.ended length) :=
    (h.closeString hs hends length).closeBrackets houtside (last_closeString hs length)
  refine hread.closed ?_ (by rw [hended]) (by rw [hended])
  rw [hended]
  exact List.append_ne_nil_of_right_ne_nil _ (List.append_ne_nil_of_right_ne_nil _ hcurrent)

/-- A text that the scan leaves in a string is not closed. -/
theorem not_closed_of_walk {t : Text} (hwalk : empty.walk 0 t = some u)
    (hquoting : u.quoting ≠ .outside) : ¬Closed t := by
  intro hclosed
  have hissue : ⟨t.length, .unterminated⟩ ∈ (tokenize t 1).issues := by
    refine List.mem_append_left _ (List.mem_reverse.mpr ?_)
    rw [run_of_walk hwalk]
    exact unterminated_mem_finish hquoting _
  rw [hclosed] at hissue
  cases hissue

theorem shielded_of_forall_ne {quote before : Char} {t : Text} (h : ∀ c ∈ t, c ≠ quote) :
    Shielded quote (before :: t) := by
  induction t generalizing before with
  | nil => exact List.isChain_singleton _
  | cons c t ih =>
    obtain ⟨hc, ht⟩ := List.forall_mem_cons.mp h
    exact List.isChain_cons_cons.mpr ⟨fun heq => absurd heq hc, ih ht⟩

/-- **A string goes on behind a backslash**, so a token that ends so is not closed. -/
theorem Rereads.not_closed_ended (h : Rereads s) (hs : Steady s) {quote : Char}
    (hnested : s.quoting = .nested quote) (hprevious : s.previous = some '\\') (length : Nat) :
    ¬Closed (s.ended length).current.reverse := by
  obtain ⟨w, hwalk, hw⟩ := h
  have hended := ended_eq s length
  obtain ⟨closers, hclosers⟩ : ∃ closers, closers = s.brackets.map fun b => b.2.closer := ⟨_, rfl⟩
  have htoken : (s.ended length).current.reverse = s.current.reverse ++ quote :: closers := by
    rw [hended, missingQuote, hnested]
    simp [hclosers]
  -- The quote that was added is shielded by the backslash, and the closers are no quotes.
  have hshielded : Shielded quote ('\\' :: quote :: closers) := by
    refine List.isChain_cons_cons.mpr ⟨fun _ => rfl, shielded_of_forall_ne ?_⟩
    rw [hclosers, List.forall_mem_map]
    intro b _
    rcases (hs.nested quote hnested).1 with rfl | rfl <;> cases b.2 <;> decide
  have hquoting : w.quoting = .nested quote := hw.quoting.trans hnested
  have hbehind : w.previous = some '\\' := by
    rw [hw.previous, ← (hs.nested quote hnested).2, hprevious]
  have hrest := walk_of_shielded w (0 + s.current.reverse.length) hquoting hbehind hshielded
  rw [htoken]
  refine not_closed_of_walk (u := { w with
    current := (quote :: closers).reverse ++ w.current
    previous := ('\\' :: quote :: closers).getLast? }) ?_ ?_
  · rw [walk_append, hwalk, Option.bind_some, hrest]
  · rw [hquoting]
    exact Quoting.noConfusion

end Scan

/-- **A text that ends in a string in brackets, right behind a backslash.** -/
def EndsEscaped (text : Text) : Prop :=
  (∃ quote, (Scan.empty.run 0 text).quoting = .nested quote) ∧ text.getLast? = some '\\'

namespace Scan

/-- **The scan at the end of a text.** -/
structure Reaches (text : Text) (s : Scan) : Prop where
  run : Scan.empty.run 0 text = s
  steady : Steady s
  tokens : ∀ t ∈ s.tokens, Misread text t ∨ Closed t.text
  current : Misread text ⟨s.start, s.current.reverse⟩ ∨ Rereads s
  spaced : ∀ t ∈ s.tokens, Parted text s.issues t.column
  start : s.current ≠ [] → Parted text s.issues s.start
  previous : s.quoting ≠ .outside → s.previous = text.getLast?

theorem exists_reaches (text : Text) : ∃ s, Reaches text s := by
  obtain ⟨n, ⟨hfaithful, hspaced⟩, hend⟩ := run_induction
    (P := fun n s => Faithful text n s ∧ Spaced text n s)
    (fun n s c u hs hc hstep => ⟨hs.1.step hc hstep, hs.2.step hs.1.steady hc hstep⟩)
    ⟨.empty text, .empty text⟩ (List.drop_zero (l := text))
  refine ⟨_, rfl, hfaithful.steady, hfaithful.tokens, hfaithful.current, hspaced.tokens, ?_, ?_⟩
  · intro hcurrent
    simpa [hcurrent] using hspaced.current
  · intro hquoting
    rw [hfaithful.previous, List.take_of_length_le (hend.resolve_right fun h => hquoting h.2)]

namespace Reaches

/-- The token that ends with the text starts as it did before. -/
theorem misread_ended {s : Scan} {text : Text}
    (hmisread : Misread text ⟨s.start, s.current.reverse⟩) :
    Misread text ⟨s.start, (s.ended text.length).current.reverse⟩ := by
  have hended := ended_eq s text.length
  rw [hended, ← List.append_assoc, List.reverse_append]
  exact hmisread.append _

variable {s : Scan} {text : Text} {t : Piece} (h : Reaches text s)
include h

theorem mem_tokensOf : t ∈ (tokensOf text).1 ↔ t ∈ s.tokens ∨
    (s.current ≠ [] ∧ t = ⟨s.start, (s.ended text.length).current.reverse⟩) := by
  rw [tokensOf_eq h.steady h.run, List.mem_append, List.mem_reverse]
  split <;> simp [*]

theorem getLast?_tokensOf (hcurrent : s.current ≠ []) : (tokensOf text).1.getLast? =
    some ⟨s.start, (s.ended text.length).current.reverse⟩ := by
  rw [tokensOf_eq h.steady h.run, if_neg hcurrent, List.getLast?_concat]

theorem mem_issues {issue : TokenIssue} (hissue : issue ∈ s.issues) :
    issue ∈ (tokensOf text).2 := by
  rw [tokensOf_eq h.steady h.run]
  exact List.mem_append_left _ (List.mem_reverse.mpr hissue)

theorem endsEscaped_iff : EndsEscaped text ↔
    ∃ quote, s.quoting = .nested quote ∧ s.previous = some '\\' := by
  rw [EndsEscaped, h.run, ← exists_and_right]
  refine exists_congr fun quote => and_congr_right fun hnested => ?_
  rw [h.previous (by rw [hnested]; exact Quoting.noConfusion)]

theorem closed_of_mem (ht : t ∈ (tokensOf text).1) (hmisread : ¬Misread text t)
    (hends : ¬(EndsEscaped text ∧ (tokensOf text).1.getLast? = some t)) : Closed t.text := by
  rcases h.mem_tokensOf.mp ht with hbefore | ⟨hcurrent, rfl⟩
  · exact (h.tokens t hbefore).resolve_left hmisread
  · have hread : Rereads s := h.current.resolve_left (mt misread_ended hmisread)
    refine hread.closed_ended h.steady hcurrent (fun quote hnested hprevious => hends ?_) _
    exact ⟨h.endsEscaped_iff.mpr ⟨quote, hnested, hprevious⟩, h.getLast?_tokensOf hcurrent⟩

theorem not_closed_of_endsEscaped (hmisread : ¬Misread text t) (hends : EndsEscaped text)
    (hlast : (tokensOf text).1.getLast? = some t) : ¬Closed t.text := by
  obtain ⟨quote, hnested, hprevious⟩ := h.endsEscaped_iff.mp hends
  have hcurrent : s.current ≠ [] :=
    h.steady.begun (.inr (by rw [hnested]; exact Quoting.noConfusion))
  rw [h.getLast?_tokensOf hcurrent, Option.some_inj] at hlast
  subst hlast
  have hread : Rereads s := h.current.resolve_left (mt misread_ended hmisread)
  exact hread.not_closed_ended h.steady hnested hprevious _

/-- **A misread quote stands behind a closing bracket that was dropped.** -/
theorem exists_unmatched (ht : t ∈ (tokensOf text).1) (hmisread : Misread text t) :
    ∃ b, ⟨t.column - 1, .unmatched b⟩ ∈ (tokensOf text).2 := by
  have hparted : Parted text s.issues t.column := by
    rcases h.mem_tokensOf.mp ht with hbefore | ⟨hcurrent, rfl⟩
    · exact h.spaced t hbefore
    · exact h.start hcurrent
  rcases hparted with hblank | ⟨b, hb⟩
  · rw [hmisread.2] at hblank
    cases hblank
  · exact ⟨b, h.mem_issues hb⟩

theorem unterminated_mem (hends : EndsEscaped text) :
    ⟨text.length, .unterminated⟩ ∈ (tokensOf text).2 := by
  obtain ⟨quote, hnested, -⟩ := h.endsEscaped_iff.mp hends
  rw [tokensOf, h.run]
  exact List.mem_reverse.mpr
    (unterminated_mem_finish (by rw [hnested]; exact Quoting.noConfusion) _)

end Reaches

/-- A double quote that nothing answers leaves its token in a string. -/
theorem not_closed_of_lone_quote {t : Text} (hhead : t.head? = some '"') (htail : '"' ∉ t.tail) :
    ¬Closed t := by
  cases t with
  | nil => cases hhead
  | cons c t =>
    obtain rfl := Option.some_inj.mp hhead
    obtain ⟨previous, hwalk⟩ := walk_top
      { empty with current := ['"'], previous := some '"', quoting := .top } (0 + 1) rfl htail
    refine not_closed_of_walk (u := { empty with
      current := t.reverse ++ ['"'], previous := previous, quoting := .top }) ?_ nofun
    rw [walk_cons]
    exact hwalk

end Scan

/-! ### Tokens in their slots -/

/-- **A token is closed**, whatever was repaired in it, but for two cases that are both reported. A
token that does not start with a misread quote is closed exactly if it is not the one that ends in
a string in brackets right behind a backslash. A token that does start so is not closed if it has
no further double quote. -/
theorem closed_iff_of_mem_slots (text : Text) (arity : Nat) (t : Piece)
    (h : some t ∈ (tokenize text arity).slots) :
    (¬Misread text t →
        (Closed t.text ↔ ¬(EndsEscaped text ∧ (tokensOf text).1.getLast? = some t))) ∧
      (Misread text t → '"' ∉ t.text.tail → ¬Closed t.text) ∧
      (Misread text t → ∃ b, ⟨t.column - 1, .unmatched b⟩ ∈ (tokenize text arity).issues) ∧
      (EndsEscaped text → ⟨text.length, .unterminated⟩ ∈ (tokenize text arity).issues) := by
  obtain ⟨s, hs⟩ := Scan.exists_reaches text
  have ht := mem_tokensOf_of_mem_slots h
  refine ⟨fun hmisread => ⟨fun hclosed hends => ?_, hs.closed_of_mem ht hmisread⟩, ?_, ?_, ?_⟩
  · exact hs.not_closed_of_endsEscaped hmisread hends.1 hends.2 hclosed
  · exact fun hmisread => Scan.not_closed_of_lone_quote hmisread.1
  · intro hmisread
    obtain ⟨b, hb⟩ := hs.exists_unmatched ht hmisread
    exact ⟨b, List.mem_append_left _ hb⟩
  · exact fun hends => List.mem_append_left _ (hs.unterminated_mem hends)

/-- A closing bracket is dropped, and a string and a list are closed at the end of the text. -/
def repairedText : Text := "x) [1 'a\\' b".toList

theorem closed_iff_of_mem_slots_repairedText :
    some ⟨3, "[1,'a\\' b']".toList⟩ ∈ (tokenize repairedText 2).slots ∧
      Closed "[1,'a\\' b']".toList := by
  have hslot : some ⟨3, "[1,'a\\' b']".toList⟩ ∈ (tokenize repairedText 2).slots := by decide
  obtain ⟨hclosed, -⟩ := closed_iff_of_mem_slots repairedText 2 _ hslot
  exact ⟨hslot, (hclosed (by decide)).mpr fun hends => absurd hends.1.2 (by decide)⟩

/-- **Not every repaired token is closed**: neither one that ends in a string in brackets right
behind a backslash, nor one that starts with a quote behind a closing bracket that was dropped. -/
theorem not_closed_of_repaired :
    (¬∀ (text : Text) (arity : Nat) (t : Piece),
      some t ∈ (tokenize text arity).slots → Closed t.text) ∧
    ¬∀ (text : Text) (arity : Nat) (t : Piece),
      some t ∈ (tokenize text arity).slots → text.getLast? ≠ some '\\' → Closed t.text := by
  constructor
  · intro h
    have hslot : some ⟨0, ['[', '"', '\\', '"', ']']⟩ ∈ (tokenize ['[', '"', '\\'] 1).slots := by
      decide
    exact absurd (h _ 1 _ hslot) (by decide)
  · intro h
    have hslot : some ⟨1, ['"']⟩ ∈ (tokenize [')', '"'] 1).slots := by decide
    exact absurd (h _ 1 _ hslot (by decide)) (by decide)

end DesignRecipe

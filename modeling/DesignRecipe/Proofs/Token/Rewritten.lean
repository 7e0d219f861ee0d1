import DesignRecipe.Proofs.Token.Content
import DesignRecipe.Proofs.Token.Reread

/-!
# Tokens written back on one line

The tokens of a text without a repair can be written on one line, with a space between neighbours:
scanned again they are the same tokens, and still there is nothing to repair. So such a list of
tokens is a normal form of its text.

A token is read again as it was read first, since its scan follows the scan of the text that it was
taken from (`Scan.Rereads`). What is left to show is that it does not matter where the token stands.
The scan looks at what is before a token in two ways only, whether that is a blank and whether it is
a backslash. Behind a blank both are as at the start of a text, and so the token is read there as
it is read alone (`Scan.Displaced`).
-/

namespace DesignRecipe

open Text (isBlank)

namespace Scan

variable {s u v w : Scan} {column n : Nat} {c : Char} {t text : Text}

/-! ### Brackets of the same kinds -/

section Kinds

variable {brackets brackets' : List (Nat × Bracket)}
  (h : brackets.map Prod.snd = brackets'.map Prod.snd)
include h

/-- What a character puts into the token does not depend on where the open brackets stand. -/
theorem taken_congr (c : Char) : taken c brackets = taken c brackets' := by
  unfold taken
  cases Bracket.ofCloser? c with
  | none => rfl
  | some => cases brackets <;> cases brackets' <;> simp_all

theorem map_bracketsAfter_congr (column column' : Nat) (c : Char) :
    (bracketsAfter column c brackets).map Prod.snd =
      (bracketsAfter column' c brackets').map Prod.snd := by
  unfold bracketsAfter
  cases Bracket.ofOpener? c with
  | some b => exact congrArg (b :: ·) h
  | none =>
    cases Bracket.ofCloser? c with
    | none => exact h
    | some => simp only [List.map_tail, h]

theorem repairOf_eq_nil_congr (column column' : Nat) (c : Char) :
    repairOf column c brackets = [] ↔ repairOf column' c brackets' = [] := by
  unfold repairOf
  cases Bracket.ofCloser? c with
  | none => exact Iff.rfl
  | some => cases brackets <;> cases brackets' <;> simp_all

end Kinds

/-! ### A token in two places -/

/-- **The same token read in two places**: by the scan `u` from the start of a text, and by the scan
`v` from a column behind the scan `s`. -/
structure Displaced (s : Scan) (column : Nat) (u v : Scan) : Prop where
  current : v.current = u.current
  kinds : v.brackets.map Prod.snd = u.brackets.map Prod.snd
  quoting : v.quoting = u.quoting
  gap : v.gap = u.gap
  blank : v.previous.all isBlank = u.previous.all isBlank
  escaped : v.previous = some '\\' ↔ u.previous = some '\\'
  tokens : u.tokens = [] → v.tokens = s.tokens
  issues : u.issues = [] → v.issues = s.issues
  start : u.tokens = [] → u.current ≠ [] → v.start = column + u.start

namespace Displaced

/-- Before the token nothing has been read of it. -/
theorem empty (h : s.Rests) (column : Nat) : Displaced s column empty s where
  current := h.current
  kinds := by rw [h.brackets]; rfl
  quoting := h.quoting
  gap := h.gap
  blank := h.previous
  escaped := by
    refine iff_of_false (fun hback => ?_) nofun
    have hprevious := h.previous
    rw [hback] at hprevious
    exact absurd hprevious (by decide)
  tokens _ := rfl
  issues _ := rfl
  start _ hbegun := absurd rfl hbegun

variable (h : Displaced s column u v)
include h

theorem brackets_eq_nil : v.brackets = [] ↔ u.brackets = [] := by
  rw [← List.map_eq_nil_iff (f := Prod.snd), h.kinds, List.map_eq_nil_iff]

theorem ends_iff : v.Ends c ↔ u.Ends c := by
  rw [Ends, Ends, h.quoting, ne_eq, ne_eq, h.escaped]

/-- A character that may begin the token. -/
theorem begin (n : Nat) (c : Char) : Displaced s column (u.begin n c) (v.begin (column + n) c) ∧
    (u.tokens = [] → (v.begin (column + n) c).start = column + (u.begin n c).start) := by
  have hstart : u.tokens = [] → (v.begin (column + n) c).start = column + (u.begin n c).start := by
    intro hnone
    by_cases hcurrent : u.current = []
    · simp [Scan.begin, h.current, hcurrent]
    · simp [Scan.begin, h.current, hcurrent, h.start hnone hcurrent]
  exact ⟨⟨h.current, h.kinds, h.quoting, h.gap, rfl, Iff.rfl, h.tokens, h.issues,
    fun hnone _ => hstart hnone⟩, hstart⟩

/-- A character that is put into the token. -/
theorem push (c : Char) (hstart : u.tokens = [] → v.start = column + u.start) :
    Displaced s column (u.push c) (v.push c) :=
  ⟨congrArg (c :: ·) h.current, h.kinds, h.quoting, h.gap, h.blank, h.escaped, h.tokens, h.issues,
    fun hnone _ => hstart hnone⟩

/-- Both scans put a comma in between, or none does. -/
theorem separate (c : Char) (hstart : u.tokens = [] → v.start = column + u.start) :
    Displaced s column (u.separate c) (v.separate c) ∧
      (u.tokens = [] → (v.separate c).start = column + (u.separate c).start) := by
  have hgap : Displaced s column { u with gap := false } { v with gap := false } :=
    ⟨h.current, h.kinds, h.quoting, rfl, h.blank, h.escaped, h.tokens, h.issues,
      fun hnone _ => hstart hnone⟩
  have hhead : v.current.head? = u.current.head? := congrArg List.head? h.current
  simp only [Scan.separate, h.gap, hhead]
  split
  · split
    · exact ⟨hgap, hstart⟩
    · exact ⟨hgap.push ',' hstart, hstart⟩
  · exact ⟨h, hstart⟩

/-- A character that is taken for what it is. -/
theorem mark (n : Nat) (c : Char) (hstart : u.tokens = [] → v.start = column + u.start) :
    Displaced s column (u.mark n c) (v.mark (column + n) c) := by
  have hgap : (v.mark (column + n) c).gap = (u.mark n c).gap := by
    have htail : v.brackets.tail.isEmpty = u.brackets.tail.isEmpty := by
      rw [Bool.eq_iff_iff, List.isEmpty_iff, List.isEmpty_iff,
        ← List.map_eq_nil_iff (f := Prod.snd), List.map_tail, h.kinds, ← List.map_tail,
        List.map_eq_nil_iff]
    rw [gap_mark, gap_mark, h.gap, htail]
  obtain ⟨gap, hu⟩ := mark_eq u n c
  obtain ⟨gap', hv⟩ := mark_eq v (column + n) c
  rw [hu, hv] at hgap ⊢
  refine ⟨?_, map_bracketsAfter_congr h.kinds _ _ c, ?_, hgap, h.blank, h.escaped, h.tokens, ?_,
    fun hnone _ => hstart hnone⟩
  · dsimp only
    rw [taken_congr h.kinds, h.current]
  · simp only [ne_eq, h.brackets_eq_nil, h.quoting]
  · intro hnone
    obtain ⟨hrepair, hissues⟩ := List.append_eq_nil_iff.mp hnone
    dsimp only
    rw [(repairOf_eq_nil_congr h.kinds _ n c).mpr hrepair, h.issues hissues, List.nil_append]

/-- A token that ends is the one that both scans have read. -/
theorem endToken : Displaced s column u.endToken v.endToken := by
  rw [endToken_eq, endToken_eq]
  refine ⟨rfl, h.kinds, h.quoting, h.gap, h.blank, h.escaped, fun hnone => ?_, h.issues,
    fun _ hbegun => absurd rfl hbegun⟩
  dsimp only at hnone ⊢
  rw [h.current]
  split at hnone
  · next hcurrent => rw [if_pos hcurrent, h.tokens hnone]
  · cases hnone

/-- Both scans remember the character. -/
theorem read (c : Char) : Displaced s column { u with previous := some c }
    { v with previous := some c } :=
  ⟨h.current, h.kinds, h.quoting, h.gap, rfl, Iff.rfl, h.tokens, h.issues, h.start⟩

/-- Both scans are led into the same string, or out of one. -/
theorem quote (quoting : Quoting) : Displaced s column { u with quoting := quoting }
    { v with quoting := quoting } :=
  ⟨h.current, h.kinds, rfl, h.gap, h.blank, h.escaped, h.tokens, h.issues, h.start⟩

/-- **Both scans take a character in the same way.** -/
theorem step (hu : Steady u) (hstep : u.step n c = some w) :
    ∃ z, v.step (column + n) c = some z ∧ Displaced s column w z := by
  have hbrackets := h.brackets_eq_nil
  have hquoting := h.quoting
  obtain ⟨hbegin, hstart⟩ := h.begin n c
  -- A string stands in a token that has begun, and so both scans know where.
  have hinside (hstring : u.quoting ≠ .outside) : u.tokens = [] → v.start = column + u.start :=
    fun hnone => h.start hnone (hu.begun (.inr hstring))
  cases takes_of_step hstep with
  | quoted hstring hends =>
    refine ⟨_, step_of_takes (.quoted (hquoting ▸ hstring) (mt h.ends_iff.mp hends)), ?_⟩
    exact (h.push c (hinside hstring)).read c
  | unquoted hends =>
    have hstring : u.quoting ≠ .outside := by
      rintro houtside
      simp [Ends, houtside] at hends
    refine ⟨_, step_of_takes (.unquoted (h.ends_iff.mpr hends)), ?_⟩
    exact ((h.push c (hinside hstring)).read c).quote .outside
  | parted houtside hblank hnil =>
    refine ⟨_, step_of_takes (.parted (hquoting.trans houtside) hblank (hbrackets.mpr hnil)), ?_⟩
    exact (h.read c).endToken
  | passed houtside hblank hne =>
    refine ⟨_, step_of_takes (.passed (hquoting.trans houtside) hblank (mt hbrackets.mp hne)), ?_⟩
    exact ⟨h.current, h.kinds, h.quoting, rfl, rfl, Iff.rfl, h.tokens, h.issues, h.start⟩
  | opened houtside hnil hc hprevious =>
    refine ⟨_, step_of_takes (.opened (hquoting.trans houtside) (hbrackets.mpr hnil) hc
      (h.blank.trans hprevious)), ?_⟩
    exact (hbegin.push c hstart).quote .top
  | marked houtside hblank hcomment hnil hquote =>
    refine ⟨_, step_of_takes (.marked (hquoting.trans houtside) hblank hcomment
      (hbrackets.mpr hnil) (by rwa [h.blank])), ?_⟩
    exact hbegin.mark n c hstart
  | within houtside hblank hcomment hne =>
    refine ⟨_, step_of_takes (.within (hquoting.trans houtside) hblank hcomment
      (mt hbrackets.mp hne)), ?_⟩
    obtain ⟨hseparate, hstart'⟩ := hbegin.separate c hstart
    obtain ⟨comma, -, heq⟩ := separate_eq (u.begin n c) c
    exact hseparate.mark n c fun hnone => hstart' (by rwa [heq] at hnone)

/-- **The same token is read in both places**, for as long as the text goes on. -/
theorem walk (hu : Steady u) (hwalk : u.walk n t = some w) :
    ∃ z, v.walk (column + n) t = some z ∧ Displaced s column w z := by
  induction t generalizing u v n with
  | nil => exact ⟨v, rfl, Option.some_inj.mp hwalk ▸ h⟩
  | cons c t ih =>
    rw [walk_cons] at hwalk
    obtain ⟨u', hstep, hrest⟩ := Option.bind_eq_some_iff.mp hwalk
    obtain ⟨v', hstep', h'⟩ := h.step hu hstep
    obtain ⟨z, hz, hdisplaced⟩ := ih h' (hu.step hstep) hrest
    exact ⟨z, by rw [walk_cons, hstep', Option.bind_some, Nat.add_assoc, hz], hdisplaced⟩

end Displaced

/-! ### Tokens of a text without a repair -/

/-- **A token that can be read again is a token wherever it stands between blanks.** -/
theorem Rereads.whole (h : Rereads s) (hcurrent : s.current ≠ []) (hquoting : s.quoting = .outside)
    (hbrackets : s.brackets = []) : Whole s.current.reverse s.current.reverse := by
  intro r column hr
  obtain ⟨u, hwalk, hu⟩ := h
  obtain ⟨v, hv, h⟩ := (Displaced.empty hr column).walk .empty hwalk
  have hkinds : v.brackets.map Prod.snd = [] := by rw [h.kinds, hu.kinds, hbrackets]; rfl
  have hreverse : s.current.reverse.reverse = s.current := List.reverse_reverse _
  refine ⟨v, hv, h.quoting.trans (hu.quoting.trans hquoting), List.map_eq_nil_iff.mp hkinds,
    h.gap.trans hu.gap, ?_, ?_, ?_, h.tokens hu.tokens, h.issues hu.issues⟩
  · rw [h.current, hu.current, hreverse]
  · simpa using hcurrent
  · rw [h.start hu.tokens (by rwa [hu.current]), hu.start, Nat.add_zero]

/-- **The scan of a text without a repair**: the tokens so far are tokens wherever they stand
between blanks, and the one that has begun can be read again. -/
structure Movable (s : Scan) : Prop where
  issues : s.issues = []
  waits : s.current = [] → s.previous.all isBlank = true
  tokens : ∀ t ∈ s.tokens, Whole t.text t.text
  current : Rereads s

theorem Movable.empty : Movable empty :=
  ⟨rfl, fun _ => rfl, List.forall_mem_nil _, .of_nil .empty rfl⟩

theorem Movable.step (h : Movable s) (hs : Steady s) (hstep : s.step n c = some u)
    (hissues : u.issues = s.issues) : Movable u := by
  have hnone : u.issues = [] := hissues.trans h.issues
  have hsteady := hs.step hstep
  have hprevious := previous_of_step hstep
  by_cases hcurrent : s.current = []
  · obtain ⟨htokens, ⟨hnil, hwaits⟩ | ⟨hbegun, -, -⟩⟩ := waits_or_begins hs hstep hcurrent
    · -- Nothing was dropped, so a blank stands before the next token.
      have hblank : isBlank c = true := hwaits.resolve_right (by simp [hnone])
      exact ⟨hnone, fun _ => by rwa [hprevious], htokens ▸ h.tokens, .of_nil hsteady hnil⟩
    · have hne : u.current ≠ [] := by simp [hbegun]
      refine ⟨hnone, fun hnil => absurd hnil hne, htokens ▸ h.tokens, ?_⟩
      exact h.current.step hs hstep hne fun hnil _ => h.waits hnil
  · rcases goes_on_or_ends hstep hcurrent with
      ⟨htokens, -, t, hgrown⟩ | ⟨houtside, hbrackets, hblank, hnil, htokens⟩
    · have hne : u.current ≠ [] := by
        rw [hgrown]
        exact List.append_ne_nil_of_right_ne_nil _ hcurrent
      refine ⟨hnone, fun hnil => absurd hnil hne, htokens ▸ h.tokens, ?_⟩
      exact h.current.step hs hstep hne fun hnil => absurd hnil hcurrent
    · refine ⟨hnone, fun _ => by rwa [hprevious], ?_, .of_nil hsteady hnil⟩
      rw [htokens]
      exact List.forall_mem_cons.mpr ⟨h.current.whole hcurrent houtside hbrackets, h.tokens⟩

theorem movable_run (hissues : (Scan.empty.run 0 text).issues = []) :
    Movable (Scan.empty.run 0 text) := by
  obtain ⟨-, h, -⟩ := clean_induction (P := fun _ => Movable)
    (fun _ _ _ _ hs h _ hstep hsame => h.step hs hstep hsame) .empty hissues
  exact h

end Scan

/-! ### Tokens written back -/

/-- **The tokens of a text without a repair** are tokens wherever they stand between blanks. -/
theorem whole_of_mem_tokensOf {text : Text} (h : (tokensOf text).2 = []) :
    ∀ t ∈ (tokensOf text).1, Scan.Whole t.text t.text := by
  obtain ⟨hs, houtside, hbrackets, htokens⟩ := tokensOf_of_issues_eq_nil h rfl
  have hmovable := Scan.movable_run hs
  rw [htokens]
  refine List.forall_mem_append.mpr ⟨fun t ht => hmovable.tokens t (List.mem_reverse.mp ht), ?_⟩
  split
  · exact List.forall_mem_nil _
  · next hcurrent =>
    exact List.forall_mem_singleton.mpr (hmovable.current.whole hcurrent houtside hbrackets)

/-- **Tokens with spaces between them** are found again, and nothing else is. -/
theorem tokensOf_join {ts : List Text} (h : ∀ t ∈ ts, Scan.Whole t t) :
    (tokensOf (Text.join [' '] ts)).1.map Piece.text = ts ∧
      (tokensOf (Text.join [' '] ts)).2 = [] := by
  obtain ⟨pieces, htexts, htokenize⟩ := tokenize_join (List.forall₂_same.mpr h)
  have hpieces := pieces_tokenize (Text.join [' '] ts) ts.length
  have hissues := issues_tokenize (Text.join [' '] ts) ts.length
  rw [htokenize] at hpieces hissues
  refine ⟨?_, (List.append_eq_nil_iff.mp hissues.symm).1⟩
  rw [← hpieces, ← htexts]
  simp [Tokens.pieces, List.reduceOption, List.filterMap_map]

/-- What is in the slots is known from the tokens, as far as only texts are asked for. -/
theorem texts_slots_tokenize (text : Text) (arity : Nat) :
    (tokenize text arity).slots.map (Option.map Piece.text) =
      (((tokensOf text).1.map Piece.text).take arity).map some ++
        List.replicate (arity - ((tokensOf text).1.map Piece.text).length) none := by
  have hleft : arity - min arity (tokensOf text).1.length = arity - (tokensOf text).1.length := by
    omega
  rw [slots_tokenize, List.map_append, List.map_replicate, ← List.map_take, List.map_map,
    List.map_map, List.length_take, List.length_map, hleft]
  rfl

/-- The tokens in the slots, written on one line with spaces between them. -/
def Tokens.joined (r : Tokens) : Text := Text.join [' '] (r.slots.reduceOption.map Piece.text)

/-- **Tokens without a repair are a normal form.** Written on one line with spaces between them they
need no repair either, and they are the same tokens again, slot by slot. -/
theorem tokenize_joined {text : Text} {arity : Nat} (h : (tokenize text arity).issues = []) :
    (tokenize (tokenize text arity).joined arity).issues = [] ∧
      (tokenize (tokenize text arity).joined arity).slots.map (Option.map Piece.text) =
        (tokenize text arity).slots.map (Option.map Piece.text) := by
  obtain ⟨hissues, hlength⟩ := tokensOf_of_issues_tokenize_eq_nil h
  have hjoined : (tokenize text arity).joined =
      Text.join [' '] ((tokensOf text).1.map Piece.text) := by
    rw [Tokens.joined, reduceOption_slots_tokenize, List.take_of_length_le hlength]
  obtain ⟨htexts, hnone⟩ :=
    tokensOf_join (List.forall_mem_map.mpr (whole_of_mem_tokensOf hissues))
  rw [hjoined]
  constructor
  · have hlength' : (tokensOf (Text.join [' '] ((tokensOf text).1.map Piece.text))).1.length ≤
        arity := by
      simpa using (congrArg List.length htexts).trans_le (by simpa using hlength)
    rw [issues_tokenize, hnone, List.drop_eq_nil_of_le hlength']
    rfl
  · rw [texts_slots_tokenize, texts_slots_tokenize, htexts]

/-- Quotes in the middle of a token and at its start, blanks inside brackets, and a comment. -/
def quotedText : Text := "a\"b  \"c  d\"e [1 'f ]' (2 , \"#\")]x\t# g".toList

theorem tokenize_joined_quotedText :
    (tokenize quotedText 4).issues = [] ∧
      (tokenize quotedText 4).joined = "a\"b \"c  d\"e [1,'f ]',(2,\"#\")]x".toList ∧
      (tokenize (tokenize quotedText 4).joined 4).issues = [] ∧
      (tokenize (tokenize quotedText 4).joined 4).slots.map (Option.map Piece.text) =
        (tokenize quotedText 4).slots.map (Option.map Piece.text) := by
  have hissues : (tokenize quotedText 4).issues = [] := by decide
  obtain ⟨hjoined, hslots⟩ := tokenize_joined hissues
  exact ⟨hissues, by decide, hjoined, hslots⟩

end DesignRecipe

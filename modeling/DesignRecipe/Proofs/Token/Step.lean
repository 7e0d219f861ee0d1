import DesignRecipe.Proofs.Token.Scan

/-!
# How the scan takes a character

There are seven ways for the scan to take a character (`Scan.Takes`), by whether it is in a
string, and outside of strings by whether the character is a blank and whether brackets are open.
In two of them the character is taken for what it is (`Scan.mark`): a bracket, a quote, or a
character without a meaning of its own. What is proved of the scan by induction on the text is
proved for these ways, so that no later proof opens the scan again.

Two things are known of the scan after any character (`Scan.Steady`). Brackets and strings stand
in a token that has begun; and where the scan is outside of strings, no blank is the last character
of the token.
-/

namespace DesignRecipe

open Text (isBlank)

namespace Scan

variable {s u : Scan} {column : Nat} {c : Char}

/-! ### The parts of a step -/

/-- A closing bracket without an open one is not put into the token. -/
theorem close_nil (hbrackets : s.brackets = []) (column : Nat) (b : Bracket) :
    s.close column b = { s.report column (.unmatched b) with gap := false } := by
  simp [close, hbrackets, report]

/-- A closing bracket is put into the token as the one that was expected. -/
theorem exists_close_cons {outer : List (Nat × Bracket)} {position : Nat} {expected : Bracket}
    (hbrackets : s.brackets = (position, expected) :: outer) (column : Nat) (b : Bracket) :
    ∃ gap, s.close column b = { s with
      current := expected.closer :: s.current, brackets := outer, gap := gap
      issues :=
        (if expected = b then [] else [⟨column, .mismatched b expected⟩]) ++ s.issues } := by
  simp only [close, hbrackets]
  split
  · split <;> exact ⟨_, rfl⟩
  · split <;> exact ⟨_, rfl⟩

/-- The closing bracket that was expected is taken without a repair. -/
theorem mark_closer {outer : List (Nat × Bracket)} {position : Nat} {b : Bracket}
    (hbrackets : s.brackets = (position, b) :: outer) (hgap : s.gap = false) :
    s.mark column b.closer = { s.push b.closer with brackets := outer } := by
  obtain ⟨-, -, hopener, hcloser⟩ := closer_facts b
  simp only [mark, hopener, hcloser, close, hbrackets, if_true, push]
  split <;> simp [hgap]

/-- Before a character a comma may be put in between. -/
theorem separate_eq (s : Scan) (c : Char) : ∃ t, (t = [] ∨ t = [',']) ∧
    s.separate c = { s with current := t ++ s.current, gap := false } := by
  rw [separate]
  split
  · dsimp only
    split
    · exact ⟨[], .inl rfl, rfl⟩
    · exact ⟨[','], .inr rfl, rfl⟩
  · next hgap =>
    rw [Bool.not_eq_true] at hgap
    exact ⟨[], .inl rfl, by rw [← hgap]; rfl⟩

/-- A token that has begun is finished. -/
theorem endToken_eq (s : Scan) : s.endToken = { s with
    tokens := if s.current = [] then s.tokens else ⟨s.start, s.current.reverse⟩ :: s.tokens
    current := [] } := by
  rw [endToken]
  cases hcurrent : s.current with
  | nil => simp [← hcurrent]
  | cons c t => simp

/-! ### What a character is taken for -/

theorem ofOpener?_eq_some_iff {b : Bracket} : Bracket.ofOpener? c = some b ↔ c = b.opener := by
  refine ⟨fun h => ?_, fun h => h ▸ (opener_facts b).2.2.2.1⟩
  unfold Bracket.ofOpener? at h
  split at h <;> cases h <;> rfl

theorem ofCloser?_eq_some_iff {b : Bracket} : Bracket.ofCloser? c = some b ↔ c = b.closer := by
  refine ⟨fun h => ?_, fun h => h ▸ (closer_facts b).2.2.2⟩
  unfold Bracket.ofCloser? at h
  split at h <;> cases h <;> rfl

/-- A blank is no bracket. -/
theorem not_bracket_of_isBlank (h : isBlank c = true) :
    Bracket.ofOpener? c = none ∧ Bracket.ofCloser? c = none := by
  refine ⟨Option.eq_none_iff_forall_ne_some.mpr fun b hb => ?_,
    Option.eq_none_iff_forall_ne_some.mpr fun b hb => ?_⟩
  · rw [ofOpener?_eq_some_iff.mp hb, (opener_facts b).1] at h
    cases h
  · rw [ofCloser?_eq_some_iff.mp hb, (closer_facts b).1] at h
    cases h

/-- What a character outside of strings puts into the token: a closing bracket is put there as the
expected one, or dropped if there is none. -/
def taken (c : Char) (brackets : List (Nat × Bracket)) : Text :=
  match Bracket.ofCloser? c, brackets with
  | none, _ => [c]
  | some _, [] => []
  | some _, (_, expected) :: _ => [expected.closer]

/-- **The brackets that are open after a character** outside of strings: a closing bracket closes
the innermost one, whatever its kind. -/
def bracketsAfter (column : Nat) (c : Char) (brackets : List (Nat × Bracket)) :
    List (Nat × Bracket) :=
  match Bracket.ofOpener? c, Bracket.ofCloser? c with
  | some b, _ => (column, b) :: brackets
  | none, some _ => brackets.tail
  | none, none => brackets

/-- **The repair of a character** outside of strings: it has one if it is a closing bracket and not
the expected one. -/
def repairOf (column : Nat) (c : Char) (brackets : List (Nat × Bracket)) : List TokenIssue :=
  match Bracket.ofCloser? c, brackets with
  | none, _ => []
  | some b, [] => [⟨column, .unmatched b⟩]
  | some b, (_, expected) :: _ => if expected = b then [] else [⟨column, .mismatched b expected⟩]

/-- **What it is to take a character for what it is.** -/
theorem mark_eq (s : Scan) (column : Nat) (c : Char) : ∃ gap, s.mark column c = { s with
    current := taken c s.brackets ++ s.current
    brackets := bracketsAfter column c s.brackets
    quoting := if (c = '"' ∨ c = '\'') ∧ s.brackets ≠ [] then .nested c else s.quoting
    gap := gap
    issues := repairOf column c s.brackets ++ s.issues } := by
  unfold mark taken bracketsAfter repairOf
  cases hopener : Bracket.ofOpener? c with
  | some b =>
    obtain rfl := ofOpener?_eq_some_iff.mp hopener
    exact ⟨s.gap, by cases b <;> rfl⟩
  | none =>
    cases hcloser : Bracket.ofCloser? c with
    | none => exact ⟨s.gap, by dsimp only; split <;> rfl⟩
    | some b =>
      have hquote : ¬((c = '"' ∨ c = '\'') ∧ s.brackets ≠ []) := by
        obtain rfl := ofCloser?_eq_some_iff.mp hcloser
        cases b <;> simp [Bracket.closer]
      simp only [if_neg hquote]
      cases hbrackets : s.brackets with
      | nil => exact ⟨false, by rw [close_nil hbrackets, report, hbrackets]; rfl⟩
      | cons bracket outer => exact exists_close_cons hbrackets column b

/-- Blanks count for nothing any more behind the bracket that closes the last open one. -/
theorem gap_mark (s : Scan) (column : Nat) (c : Char) : (s.mark column c).gap =
    (s.gap && !((Bracket.ofCloser? c).isSome && s.brackets.tail.isEmpty)) := by
  rw [mark]
  cases hopener : Bracket.ofOpener? c with
  | some b =>
    obtain rfl := ofOpener?_eq_some_iff.mp hopener
    cases b <;> simp [push, Bracket.ofCloser?, Bracket.opener]
  | none =>
    cases hcloser : Bracket.ofCloser? c with
    | none =>
      dsimp only
      split <;> simp [push]
    | some b =>
      cases hbrackets : s.brackets with
      | nil => simp [close_nil hbrackets]
      | cons bracket outer =>
        cases outer <;> simp only [close, hbrackets] <;> split <;> simp [push, report]

/-- A character without a repair is put into the token as it is. -/
theorem taken_of_repairOf_eq_nil {brackets : List (Nat × Bracket)}
    (h : repairOf column c brackets = []) : taken c brackets = [c] := by
  unfold repairOf at h
  unfold taken
  cases hcloser : Bracket.ofCloser? c with
  | none => rfl
  | some b =>
    rw [hcloser] at h
    cases brackets with
    | nil => cases h
    | cons bracket outer =>
      by_cases hexpected : bracket.2 = b
      · simp [hexpected, ofCloser?_eq_some_iff.mp hcloser]
      · simp [hexpected] at h

/-- A character that is no closing bracket has no repair. -/
theorem repairOf_of_ofCloser? (h : Bracket.ofCloser? c = none) (column : Nat)
    (brackets : List (Nat × Bracket)) : repairOf column c brackets = [] := by
  unfold repairOf
  rw [h]

/-! ### The ways to take a character -/

/-- Inside brackets a comma may be put in between before a character is taken for what it is. -/
theorem within_eq (s : Scan) (column : Nat) (c : Char) : ∃ t gap, (t = [] ∨ t = [',']) ∧
    ((s.begin column c).separate c).mark column c = { s.begin column c with
      current := taken c s.brackets ++ (t ++ s.current)
      brackets := bracketsAfter column c s.brackets
      quoting := if (c = '"' ∨ c = '\'') ∧ s.brackets ≠ [] then .nested c else s.quoting
      gap := gap
      issues := repairOf column c s.brackets ++ s.issues } := by
  obtain ⟨t, ht, hseparate⟩ := separate_eq (s.begin column c) c
  obtain ⟨gap, hmark⟩ := mark_eq ((s.begin column c).separate c) column c
  refine ⟨t, gap, ht, ?_⟩
  rw [hmark, hseparate]
  rfl

/-- **How a character is taken**, by where the scan is. -/
inductive Takes (s : Scan) (column : Nat) (c : Char) : Scan → Prop
  /-- The character belongs to a string. -/
  | quoted : s.quoting ≠ .outside → ¬s.Ends c →
      Takes s column c { s.push c with previous := some c }
  /-- The character ends a string. -/
  | unquoted : s.Ends c →
      Takes s column c { s.push c with previous := some c, quoting := .outside }
  /-- A blank ends a token, if there is one. -/
  | parted : s.quoting = .outside → isBlank c = true → s.brackets = [] →
      Takes s column c ({ s with previous := some c } : Scan).endToken
  /-- A blank inside brackets is passed over. -/
  | passed : s.quoting = .outside → isBlank c = true → s.brackets ≠ [] →
      Takes s column c { s with previous := some c, gap := true }
  /-- A double quote behind a blank opens a string. -/
  | opened : s.quoting = .outside → s.brackets = [] → c = '"' → s.previous.all isBlank = true →
      Takes s column c { (s.begin column c).push c with quoting := .top }
  /-- The character is taken for what it is. -/
  | marked : s.quoting = .outside → isBlank c = false → c ≠ '#' → s.brackets = [] →
      ¬(c = '"' ∧ s.previous.all isBlank = true) →
      Takes s column c ((s.begin column c).mark column c)
  /-- The character is taken for what it is, inside brackets. -/
  | within : s.quoting = .outside → isBlank c = false → c ≠ '#' → s.brackets ≠ [] →
      Takes s column c (((s.begin column c).separate c).mark column c)

/-- **Every character is taken in one of these ways.** -/
theorem takes_of_step (h : s.step column c = some u) : Takes s column c u := by
  by_cases houtside : s.quoting = .outside
  · cases hblank : isBlank c with
    | true =>
      rw [step_blank houtside hblank] at h
      obtain rfl := Option.some_inj.mp h
      split
      · next hbrackets => exact .parted houtside hblank hbrackets
      · next hbrackets => exact .passed houtside hblank hbrackets
    | false =>
      by_cases hcomment : c = '#'
      · rw [hcomment, step_comment houtside] at h
        cases h
      · rw [step_begin houtside hblank hcomment] at h
        obtain rfl := Option.some_inj.mp h
        split
        · next hbrackets =>
          split
          · next hquote => exact .opened houtside hbrackets hquote.1 hquote.2
          · next hquote => exact .marked houtside hblank hcomment hbrackets hquote
        · next hbrackets => exact .within houtside hblank hcomment hbrackets
  · by_cases hends : s.Ends c
    · rw [step_unquoted hends] at h
      obtain rfl := Option.some_inj.mp h
      exact .unquoted hends
    · rw [step_quoted houtside hends] at h
      obtain rfl := Option.some_inj.mp h
      exact .quoted houtside hends

/-- **The ways to take a character are what the scan does.** -/
theorem step_of_takes (h : s.Takes column c u) : s.step column c = some u := by
  cases h with
  | quoted hquoting hends => exact step_quoted hquoting hends column
  | unquoted hends => exact step_unquoted hends column
  | parted houtside hblank hbrackets => rw [step_blank houtside hblank, if_pos hbrackets]
  | passed houtside hblank hbrackets => rw [step_blank houtside hblank, if_neg hbrackets]
  | opened houtside hbrackets hc hprevious =>
    subst hc
    rw [step_begin houtside (by decide) (by decide), if_pos hbrackets, if_pos ⟨rfl, hprevious⟩]
  | marked houtside hblank hcomment hbrackets hquote =>
    rw [step_begin houtside hblank hcomment, if_pos hbrackets, if_neg hquote]
  | within houtside hblank hcomment hbrackets =>
    rw [step_begin houtside hblank hcomment, if_neg hbrackets]

/-- **Only a comment ends the scan**, and no comment starts in a string. -/
theorem comment_of_step_eq_none (h : s.step column c = none) :
    c = '#' ∧ s.quoting = .outside := by
  have houtside : s.quoting = .outside := by
    by_contra hquoting
    by_cases hends : s.Ends c
    · rw [step_unquoted hends] at h
      cases h
    · rw [step_quoted hquoting hends] at h
      cases h
  refine ⟨?_, houtside⟩
  by_contra hcomment
  cases hblank : isBlank c with
  | true =>
    rw [step_blank houtside hblank] at h
    cases h
  | false =>
    rw [step_begin houtside hblank hcomment] at h
    cases h

/-- **A character outside of strings that begins no string and no comment** changes the open
brackets and is repaired by what it is alone. -/
theorem exists_step_of_unquoted (houtside : s.quoting = .outside)
    (hc : c ≠ '"' ∧ c ≠ '\'' ∧ c ≠ '#') (column : Nat) :
    ∃ u, s.step column c = some u ∧ u.quoting = .outside ∧
      u.brackets = bracketsAfter column c s.brackets ∧
      u.issues = repairOf column c s.brackets ++ s.issues := by
  obtain ⟨hdouble, hsingle, hcomment⟩ := hc
  have hquote (brackets : List (Nat × Bracket)) : ¬((c = '"' ∨ c = '\'') ∧ brackets ≠ []) :=
    fun h => h.1.elim hdouble hsingle
  have hblank (h : isBlank c = true) : bracketsAfter column c s.brackets = s.brackets ∧
      repairOf column c s.brackets = [] := by
    obtain ⟨hopener, hcloser⟩ := not_bracket_of_isBlank h
    exact ⟨by simp only [bracketsAfter, hopener, hcloser], repairOf_of_ofCloser? hcloser _ _⟩
  cases hstep : s.step column c with
  | none => exact absurd (comment_of_step_eq_none hstep).1 hcomment
  | some u =>
    refine ⟨u, rfl, ?_⟩
    cases takes_of_step hstep with
    | quoted hquoting => exact absurd houtside hquoting
    | unquoted hends => simp [Ends, houtside] at hends
    | parted _ h _ =>
      rw [endToken_eq, (hblank h).1, (hblank h).2]
      exact ⟨houtside, rfl, rfl⟩
    | passed _ h _ =>
      rw [(hblank h).1, (hblank h).2]
      exact ⟨houtside, rfl, rfl⟩
    | opened _ _ h => exact absurd h hdouble
    | marked =>
      obtain ⟨gap, hmark⟩ := mark_eq (s.begin column c) column c
      rw [hmark, if_neg (hquote _)]
      exact ⟨houtside, rfl, rfl⟩
    | within =>
      obtain ⟨t, gap, -, hwithin⟩ := within_eq s column c
      rw [hwithin, if_neg (hquote _)]
      exact ⟨houtside, rfl, rfl⟩

/-! ### What is so after every character -/

/-- **What is so after every character**: brackets and strings stand in a token that has begun,
and the last character outside of strings is no blank, neither in the token nor, outside of
brackets, in the text. -/
structure Steady (s : Scan) : Prop where
  begun : s.brackets ≠ [] ∨ s.quoting ≠ .outside → s.current ≠ []
  nested : ∀ quote, s.quoting = .nested quote →
    (quote = '"' ∨ quote = '\'') ∧ s.previous = s.current.head?
  last : s.quoting = .outside → ∀ c ∈ s.current.head?, isBlank c = false
  previous : s.quoting = .outside → s.brackets = [] → s.current ≠ [] →
    s.previous.all isBlank = false

/-- **The next character is taken for what it is**: it stands outside of strings, is no blank,
starts no comment, and comes after nothing or after a character of the token that is no blank
either. -/
structure Marks (s : Scan) (c : Char) : Prop where
  outside : s.quoting = .outside
  blank : isBlank c = false
  comment : c ≠ '#'
  last : ∀ d ∈ s.current.head?, isBlank d = false

/-- Inside brackets a comma may be put in between, which is no blank. -/
theorem Marks.separate (h : Marks s c) : Marks (s.separate c) c := by
  obtain ⟨t, ht, hseparate⟩ := separate_eq s c
  rw [hseparate]
  refine ⟨h.outside, h.blank, h.comment, ?_⟩
  rcases ht with rfl | rfl
  · exact h.last
  · simpa using (by decide : isBlank ',' = false)

namespace Steady

theorem empty : Steady empty :=
  ⟨by simp [Scan.empty], by simp [Scan.empty], by simp [Scan.empty], by simp [Scan.empty]⟩

/-- A scan outside of strings that has a character behind it. -/
theorem of_outside (hquoting : s.quoting = .outside) (hbegun : s.brackets ≠ [] → s.current ≠ [])
    (hlast : ∀ c ∈ s.current.head?, isBlank c = false) (hprevious : s.previous = some c)
    (hc : isBlank c = false) : Steady s := by
  refine ⟨fun hbegin => hbegun (hbegin.resolve_right (not_not_intro hquoting)), ?_, fun _ => hlast,
    fun _ _ _ => by simp [hprevious, hc]⟩
  intro quote hnested
  rw [hquoting] at hnested
  cases hnested

/-- A scan inside of a string that has a character of the token behind it. -/
theorem of_inside (hquoting : s.quoting ≠ .outside) (hbegun : s.current ≠ [])
    (hnested : ∀ quote, s.quoting = .nested quote →
      (quote = '"' ∨ quote = '\'') ∧ s.previous = s.current.head?) : Steady s :=
  ⟨fun _ => hbegun, hnested, fun houtside => absurd houtside hquoting,
    fun houtside => absurd houtside hquoting⟩

/-- Where no token has begun, the scan is outside of everything. -/
theorem outside_of_nil (h : Steady s) (hcurrent : s.current = []) :
    s.brackets = [] ∧ s.quoting = .outside := by
  have hbegun := mt h.begun (not_not_intro hcurrent)
  rwa [not_or, not_not, not_not] at hbegun

/-- **A quote behind a blank starts its token.** -/
theorem nil_of_previous (h : Steady s) (houtside : s.quoting = .outside)
    (hbrackets : s.brackets = []) (hprevious : s.previous.all isBlank = true) :
    s.current = [] := by
  by_contra hne
  rw [h.previous houtside hbrackets hne] at hprevious
  cases hprevious

theorem marks (h : Steady s) (houtside : s.quoting = .outside) (hblank : isBlank c = false)
    (hcomment : c ≠ '#') : Marks (s.begin column c) c :=
  ⟨houtside, hblank, hcomment, h.last houtside⟩

theorem mark (hs : Marks s c) (hbegun : s.brackets ≠ [] → s.current ≠ [])
    (hprevious : s.previous = some c) : Steady (s.mark column c) := by
  have hhead : ∀ d ∈ (c :: s.current).head?, isBlank d = false := by
    simpa using hs.blank
  rw [Scan.mark]
  split
  · exact .of_outside hs.outside (fun _ => List.cons_ne_nil _ _) hhead hprevious hs.blank
  · next b _ _ =>
    cases hbrackets : s.brackets with
    | nil =>
      rw [close_nil hbrackets]
      exact .of_outside hs.outside hbegun hs.last hprevious hs.blank
    | cons bracket outer =>
      obtain ⟨gap, hclose⟩ := exists_close_cons hbrackets column b
      rw [hclose]
      refine .of_outside hs.outside (fun _ => List.cons_ne_nil _ _) ?_ hprevious hs.blank
      simpa using (closer_facts bracket.2).1
  · split
    · next hnested =>
      refine .of_inside Quoting.noConfusion (List.cons_ne_nil _ _) ?_
      rintro quote ⟨⟩
      exact ⟨hnested.1, hprevious⟩
    · exact .of_outside hs.outside (fun _ => List.cons_ne_nil _ _) hhead hprevious hs.blank

/-- **What is so after every character** is so after one more. -/
theorem step (h : Steady s) (hstep : s.step column c = some u) : Steady u := by
  cases takes_of_step hstep with
  | quoted hquoting hends =>
    exact .of_inside hquoting (List.cons_ne_nil _ _) fun quote hnested =>
      ⟨(h.nested quote hnested).1, rfl⟩
  | unquoted hends =>
    have hblank : isBlank c = false := by
      rcases hends with ⟨-, rfl⟩ | ⟨hnested, -⟩
      · decide
      · rcases (h.nested c hnested).1 with rfl | rfl <;> decide
    exact .of_outside rfl (fun _ => List.cons_ne_nil _ _) (by simpa [push] using hblank) rfl hblank
  | parted houtside hblank hbrackets =>
    rw [endToken_eq]
    exact ⟨fun hbegun => absurd hbegun (by simp [houtside, hbrackets]), by simp [houtside], by simp,
      by simp⟩
  | passed houtside hblank hbrackets =>
    exact ⟨h.begun, by simp [houtside], h.last, fun _ hnil => absurd hnil hbrackets⟩
  | opened houtside hbrackets hc hprevious =>
    exact .of_inside Quoting.noConfusion (List.cons_ne_nil _ _) fun _ => Quoting.noConfusion
  | marked houtside hblank hcomment hbrackets hquote =>
    exact .mark (h.marks houtside hblank hcomment) (fun hne => absurd hbrackets hne) rfl
  | within houtside hblank hcomment hbrackets =>
    obtain ⟨t, -, hseparate⟩ := separate_eq (s.begin column c) c
    refine .mark (h.marks houtside hblank hcomment).separate (fun _ => ?_) ?_
    · rw [hseparate]
      exact List.append_ne_nil_of_right_ne_nil _ (h.begun (.inl hbrackets))
    · rw [hseparate]
      rfl

end Steady

/-! ### Where tokens start and end -/

/-- Each character is the one before the next. -/
theorem previous_of_step (hstep : s.step column c = some u) : u.previous = some c := by
  cases takes_of_step hstep with
  | quoted | unquoted | passed | opened => rfl
  | parted => rw [endToken_eq]
  | marked =>
    obtain ⟨gap, hmark⟩ := mark_eq (s.begin column c) column c
    rw [hmark]
    rfl
  | within =>
    obtain ⟨t, gap, -, hwithin⟩ := within_eq s column c
    rw [hwithin]
    rfl

/-- **No report is taken back**, and what is reported is the repair of the character. -/
theorem issues_of_step (hstep : s.step column c = some u) :
    ∃ raised, u.issues = raised ++ s.issues ∧
      (raised = [] ∨ raised = repairOf column c s.brackets) := by
  cases takes_of_step hstep with
  | quoted | unquoted | passed | opened => exact ⟨[], rfl, .inl rfl⟩
  | parted =>
    rw [endToken_eq]
    exact ⟨[], rfl, .inl rfl⟩
  | marked =>
    obtain ⟨gap, hmark⟩ := mark_eq (s.begin column c) column c
    rw [hmark]
    exact ⟨_, rfl, .inr rfl⟩
  | within =>
    obtain ⟨t, gap, -, hwithin⟩ := within_eq s column c
    rw [hwithin]
    exact ⟨_, rfl, .inr rfl⟩

/-- **The open brackets change** only by what the character is. -/
theorem brackets_of_step (hstep : s.step column c = some u) :
    u.brackets = s.brackets ∨ u.brackets = bracketsAfter column c s.brackets := by
  cases takes_of_step hstep with
  | quoted | unquoted | passed | opened => exact .inl rfl
  | parted =>
    rw [endToken_eq]
    exact .inl rfl
  | marked =>
    obtain ⟨gap, hmark⟩ := mark_eq (s.begin column c) column c
    rw [hmark]
    exact .inr rfl
  | within =>
    obtain ⟨t, gap, -, hwithin⟩ := within_eq s column c
    rw [hwithin]
    exact .inr rfl

/-- **A token that has begun** goes on until a blank ends it. -/
theorem goes_on_or_ends (hstep : s.step column c = some u) (hcurrent : s.current ≠ []) :
    (u.tokens = s.tokens ∧ u.start = s.start ∧ ∃ t, u.current = t ++ s.current) ∨
      (s.quoting = .outside ∧ s.brackets = [] ∧ isBlank c = true ∧ u.current = [] ∧
        u.tokens = ⟨s.start, s.current.reverse⟩ :: s.tokens) := by
  have hbegin : (s.begin column c).start = s.start := by simp [begin, hcurrent]
  cases takes_of_step hstep with
  | quoted => exact .inl ⟨rfl, rfl, [c], rfl⟩
  | unquoted => exact .inl ⟨rfl, rfl, [c], rfl⟩
  | parted houtside hblank hbrackets =>
    rw [endToken_eq]
    exact .inr ⟨houtside, hbrackets, hblank, rfl, if_neg hcurrent⟩
  | passed => exact .inl ⟨rfl, rfl, [], rfl⟩
  | opened => exact .inl ⟨rfl, hbegin, [c], rfl⟩
  | marked =>
    obtain ⟨gap, hmark⟩ := mark_eq (s.begin column c) column c
    rw [hmark]
    exact .inl ⟨rfl, hbegin, _, rfl⟩
  | within =>
    obtain ⟨t, gap, -, hwithin⟩ := within_eq s column c
    rw [hwithin]
    exact .inl ⟨rfl, hbegin, _, (List.append_assoc _ _ _).symm⟩

/-- **Where no token has begun**, a character is a blank, or a closing bracket that is dropped, or
begins a token at its column. -/
theorem waits_or_begins (hs : Steady s) (hstep : s.step column c = some u)
    (hcurrent : s.current = []) :
    u.tokens = s.tokens ∧
      ((u.current = [] ∧ (isBlank c = true ∨ ∃ b, ⟨column, .unmatched b⟩ ∈ u.issues)) ∨
        (u.current = [c] ∧ u.start = column ∧ isBlank c = false)) := by
  obtain ⟨hnil, houtside⟩ := hs.outside_of_nil hcurrent
  have hbegin : (s.begin column c).start = column := by simp [begin, hcurrent]
  have hcurrent' : (s.begin column c).current = [] := hcurrent
  cases takes_of_step hstep with
  | quoted hquoting => exact absurd houtside hquoting
  | unquoted hends => simp [Ends, houtside] at hends
  | parted _ hblank =>
    rw [endToken_eq]
    exact ⟨if_pos hcurrent, .inl ⟨rfl, .inl hblank⟩⟩
  | passed _ _ hbrackets => exact absurd hnil hbrackets
  | opened _ _ hc =>
    subst hc
    exact ⟨rfl, .inr ⟨congrArg ('"' :: ·) hcurrent', hbegin, by decide⟩⟩
  | marked _ hblank =>
    obtain ⟨gap, hmark⟩ := mark_eq (s.begin column c) column c
    have hbrackets : (s.begin column c).brackets = [] := hnil
    rw [hmark, hbrackets, hcurrent']
    cases hcloser : Bracket.ofCloser? c with
    | none => exact ⟨rfl, .inr ⟨by simp [taken, hcloser], hbegin, hblank⟩⟩
    | some b => exact ⟨rfl, .inl ⟨by simp [taken, hcloser], .inr ⟨b, by simp [repairOf, hcloser]⟩⟩⟩
  | within _ _ _ hbrackets => exact absurd hnil hbrackets

/-- **What holds before a text and is kept by every character** holds at its end, or at the start of
a comment, which is in no string. -/
theorem run_induction {P : Nat → Scan → Prop} {text rest : Text} {n : Nat}
    (hkeep : ∀ n s c u, P n s → text[n]? = some c → s.step n c = some u → P (n + 1) u)
    (h : P n s) (hrest : text.drop n = rest) :
    ∃ n', P n' (s.run n rest) ∧
      (text.length ≤ n' ∨ (text[n']? = some '#' ∧ (s.run n rest).quoting = .outside)) := by
  induction rest generalizing s n with
  | nil => exact ⟨n, h, .inl (List.drop_eq_nil_iff.mp hrest)⟩
  | cons c rest ih =>
    have hc : text[n]? = some c := by
      rw [← List.head?_drop, hrest]
      rfl
    have hdrop : text.drop (n + 1) = rest := by
      rw [← List.drop_drop, hrest]
      rfl
    rw [Scan.run]
    cases hstep : s.step n c with
    | none =>
      obtain ⟨rfl, houtside⟩ := comment_of_step_eq_none hstep
      exact ⟨n, h, .inr ⟨hc, houtside⟩⟩
    | some u => exact ih (hkeep n s c u h hc hstep) hdrop

theorem steady_run (text : Text) : Steady (empty.run 0 text) := by
  obtain ⟨_, h, -⟩ := run_induction (P := fun _ => Steady) (fun _ _ _ _ hs _ => hs.step)
    Steady.empty (List.drop_zero (l := text))
  exact h

/-- **What every character keeps that needs no repair** holds at the end of a text without repairs,
or at the start of a comment. -/
theorem clean_induction {P : Nat → Scan → Prop} {text : Text}
    (hkeep : ∀ n s c u, Steady s → P n s → text[n]? = some c → s.step n c = some u →
      u.issues = s.issues → P (n + 1) u)
    (h : P 0 empty) (hissues : (empty.run 0 text).issues = []) :
    ∃ n, P n (empty.run 0 text) ∧ (text.length ≤ n ∨ text[n]? = some '#') := by
  have hclean (n : Nat) (s : Scan) (c : Char) (u : Scan)
      (h : Steady s ∧ (s.issues = [] → P n s)) (hc : text[n]? = some c)
      (hstep : s.step n c = some u) : Steady u ∧ (u.issues = [] → P (n + 1) u) := by
    refine ⟨h.1.step hstep, fun hnil => ?_⟩
    obtain ⟨raised, hraised, -⟩ := issues_of_step hstep
    obtain ⟨-, hs⟩ := List.append_eq_nil_iff.mp (hraised ▸ hnil)
    exact hkeep n s c u h.1 (h.2 hs) hc hstep (hnil.trans hs.symm)
  obtain ⟨n, ⟨-, hn⟩, hend⟩ := run_induction hclean ⟨.empty, fun _ => h⟩
    (List.drop_zero (l := text))
  exact ⟨n, hn hissues, hend.imp_right And.left⟩

/-! ### The end of the text -/

/-- The quote that closes the string that the scan is in. -/
def missingQuote (s : Scan) : Text :=
  match s.quoting with
  | .outside => []
  | .top => ['"']
  | .nested quote => [quote]

theorem missingQuote_of_ends (h : s.Ends c) : s.missingQuote = [c] := by
  rcases h with ⟨htop, rfl⟩ | ⟨hnested, -⟩
  · rw [missingQuote, htop]
  · rw [missingQuote, hnested]

/-- The scan with all closed that was open at the end of a text, which has a length. -/
def ended (s : Scan) (length : Nat) : Scan :=
  (s.closeString length).closeBrackets (s.closeString length).brackets

theorem finish_eq (s : Scan) (length : Nat) : s.finish length = (s.ended length).endToken := rfl

/-- The repair of the string that the scan is in, if any, at the end of a text, which has a
length. -/
def unterminated (s : Scan) (length : Nat) : List TokenIssue :=
  if s.quoting = .outside then [] else [⟨length, .unterminated⟩]

/-- The repairs of brackets that are open at the end of a text, innermost first. -/
def unclosed (brackets : List (Nat × Bracket)) : List TokenIssue :=
  brackets.map fun b => ⟨b.1, .unclosed b.2⟩

theorem closeString_eq (s : Scan) (length : Nat) : s.closeString length = { s with
    current := s.missingQuote ++ s.current, quoting := .outside
    issues := s.unterminated length ++ s.issues } := by
  obtain ⟨tokens, start, current, brackets, quoting, gap, previous, issues⟩ := s
  cases quoting <;> rfl

theorem closeBrackets_eq (s : Scan) (brackets : List (Nat × Bracket)) :
    s.closeBrackets brackets = { s with
      current := (brackets.map fun b => b.2.closer).reverse ++ s.current, brackets := []
      issues := (unclosed brackets).reverse ++ s.issues } := by
  induction brackets generalizing s with
  | nil => rfl
  | cons bracket outer ih =>
    obtain ⟨position, b⟩ := bracket
    rw [closeBrackets, ih]
    simp [push, report, unclosed]

/-- **At the end of the text** the string is closed, and then the brackets, innermost first. -/
theorem ended_eq (s : Scan) (length : Nat) : s.ended length = { s with
    current := (s.brackets.map fun b => b.2.closer).reverse ++ (s.missingQuote ++ s.current)
    brackets := [], quoting := .outside
    issues := (unclosed s.brackets).reverse ++ (s.unterminated length ++ s.issues) } := by
  rw [ended, closeBrackets_eq, closeString_eq]

/-- **The tokens of a text** are those that have ended before, and the one that ends with it. What
is repaired in the text comes first, then the string, then the brackets. -/
theorem tokensOf_eq {text : Text} (hs : Steady s) (hrun : Scan.empty.run 0 text = s) :
    tokensOf text = (s.tokens.reverse ++ (if s.current = [] then []
      else [⟨s.start, (s.ended text.length).current.reverse⟩]),
      s.issues.reverse ++ (s.unterminated text.length ++ unclosed s.brackets)) := by
  have hended := ended_eq s text.length
  have hnil : (s.ended text.length).current = [] ↔ s.current = [] := by
    refine ⟨fun h => ?_, fun h => ?_⟩
    · rw [hended] at h
      exact (List.append_eq_nil_iff.mp (List.append_eq_nil_iff.mp h).2).2
    · obtain ⟨hbrackets, hquoting⟩ := hs.outside_of_nil h
      simp [hended, missingQuote, hbrackets, hquoting, h]
  have hkept : (s.ended text.length).tokens = s.tokens ∧ (s.ended text.length).start = s.start ∧
      (s.ended text.length).issues.reverse =
        s.issues.reverse ++ (s.unterminated text.length ++ unclosed s.brackets) := by
    rw [hended]
    refine ⟨rfl, rfl, ?_⟩
    rw [unterminated]
    split <;> simp
  simp only [tokensOf, hrun, finish_eq, endToken_eq, hnil, hkept]
  split <;> simp

end Scan

end DesignRecipe

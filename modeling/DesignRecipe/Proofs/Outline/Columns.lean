import DesignRecipe.Proofs.Outline.ExampleEffect
import DesignRecipe.Proofs.Token.Columns

/-!
# What is found wrong with a line is found in the line

Every finding of a section points at a column of its line or at the end of the line, and where its
message names something of the line – a token, or a bracket – the first character of that stands at
the column (`Finding.PointsInto`).

The columns are counted in steps: the payload starts at a column of the line, a part of the
payload at a column of the payload, and a token at a column of that part; blanks are passed
over at each step. So each reader is shown to find things in the line, provided that the part that
it is handed is a part of the line at the column that it is handed with it (`Text.StandsAt`).
-/

namespace DesignRecipe

/-! ### Words and parts of a text -/

namespace Text

variable {s : Text}

/-- A text that starts with a label is at least as long as the label. -/
theorem length_le_of_startsIgnoringCase {label : Text} (h : startsIgnoringCase s label = true) :
    label.length ≤ s.length := by
  have hlength := congrArg List.length (eq_of_beq h)
  rw [List.length_map, List.length_map, List.length_take] at hlength
  omega

/-- **Every word starts at its column.** -/
theorem startsIn_of_mem_words : ∀ w ∈ words s, StartsIn s w := by
  -- The words of the rest start behind the characters that have been passed over.
  have hfrom : ∀ (rest before : Text), ∀ w ∈ wordsFrom before.length rest,
      StartsIn (before ++ rest) w := by
    intro rest
    induction rest with
    | nil => exact fun _ => List.forall_mem_nil _
    | cons c rest ih =>
      intro before
      have hmore := ih (before ++ [c])
      rw [List.append_assoc, List.singleton_append, List.length_append, List.length_singleton]
        at hmore
      simp only [wordsFrom]
      split
      · exact hmore
      · next hblank =>
        have hhere (t : Text) : StartsIn (before ++ c :: rest) ⟨before.length, c :: t⟩ :=
          ⟨c, by simp, rfl, Bool.eq_false_iff.mpr hblank⟩
        split
        · exact List.forall_mem_cons.mpr ⟨hhere [], hmore⟩
        · split
          · exact List.forall_mem_singleton.mpr (hhere [])
          · next heq =>
            rw [heq] at hmore
            exact List.forall_mem_cons.mpr ⟨hhere _, (List.forall_mem_cons.mp hmore).2⟩
  exact hfrom s []

end Text

open Text (StandsAt)

variable {line part : Text} {column : Nat}

/-- What starts in a part of a text starts in the text. -/
theorem StartsIn.of_standsAt {t : Piece} (h : StartsIn part t) (hpart : StandsAt line column part) :
    StartsIn line ⟨column + t.column, t.text⟩ := by
  obtain ⟨before, after, rfl, rfl⟩ := hpart
  obtain ⟨c, hc, hhead, hblank⟩ := h
  refine ⟨c, ?_, hhead, hblank⟩
  rw [List.append_assoc, List.getElem?_append_right (Nat.le_add_right _ _), Nat.add_sub_cancel_left,
    List.getElem?_append_left (List.getElem?_eq_some_iff.mp hc).1]
  exact hc

/-! ### What messages name -/

namespace Problem

/-- **What a problem names of its line**: a token, or a bracket. -/
def named? : Problem → Option Text
  | .rejectedValue rejection => some rejection.token
  | .repaired repair => repair.named?
  | _ => none

/-- The words that messages start with that name something of their line. -/
def openings : List Text :=
  ["Argument value '", "Too many values - ignoring ", "Mismatched '", "Unmatched '", "Unclosed '"]

/-- **A message that points at what it names**: if it starts with one of these words, then with what
the problem names right behind them, and that starts in the line at the column. -/
def PointsAt (p : Problem) (line : Text) (column : Nat) : Prop :=
  ∀ opening ∈ openings, opening <+: p.message →
    ∃ t, p.named? = some t ∧ opening ++ t <+: p.message ∧ StartsIn line ⟨column, t⟩

variable {p : Problem}

/-- **What a problem names stands right behind the first words of its message.** -/
theorem exists_isPrefix_message {t : Text} (h : p.named? = some t) :
    ∃ o ∈ openings, o ++ t <+: p.message := by
  have hfirst (start a b c : Text) : start <+: start ++ a ++ b ++ c :=
    ((List.prefix_append _ a).trans (List.prefix_append _ b)).trans (List.prefix_append _ c)
  cases p with
  | rejectedValue rejection =>
    obtain rfl := Option.some_inj.mp h
    exact ⟨"Argument value '", by decide, hfirst _ _ _ _⟩
  | repaired repair =>
    cases repair with
    | unterminated => cases h
    | unclosed b =>
      obtain rfl := Option.some_inj.mp h
      exact ⟨"Unclosed '", by decide, hfirst _ _ _ _⟩
    | mismatched found expected =>
      obtain rfl := Option.some_inj.mp h
      exact ⟨"Mismatched '", by decide, hfirst _ _ _ _⟩
    | unmatched found =>
      obtain rfl := Option.some_inj.mp h
      exact ⟨"Unmatched '", by decide, List.prefix_append _ _⟩
    | excess text =>
      obtain rfl := Option.some_inj.mp h
      exact ⟨"Too many values - ignoring ", by decide, List.prefix_rfl⟩
  | _ => cases h

/-- **A message that names nothing starts otherwise**: its first four characters tell, unless the
words are the caller's own. -/
theorem take_message_notMem (hown : ∀ m, p ≠ .other m) (h : p.named? = none) :
    p.message.take 4 ∉ openings.map (List.take 4) := by
  have hopenings : openings.map (List.take 4) = [['A', 'r', 'g', 'u'], ['T', 'o', 'o', ' '],
      ['M', 'i', 's', 'm'], ['U', 'n', 'm', 'a'], ['U', 'n', 'c', 'l']] := by decide
  have hstarts (start : Text) (hmessage : p.message.take 4 = start)
      (hstart : start ∉ [['A', 'r', 'g', 'u'], ['T', 'o', 'o', ' '], ['M', 'i', 's', 'm'],
        ['U', 'n', 'm', 'a'], ['U', 'n', 'c', 'l']]) :
      p.message.take 4 ∉ openings.map (List.take 4) := by
    rwa [hopenings, hmessage]
  cases p with
  | missingPipe => exact hstarts ['P', 'i', 'p', 'e'] rfl (by decide)
  | contractWithoutArrow => exact hstarts ['A', 'r', 'r', 'o'] rfl (by decide)
  | noContractYet => exact hstarts ['I', 'n', 'v', 'a'] rfl (by decide)
  | noContract => exact hstarts ['I', 'n', 'v', 'a'] rfl (by decide)
  | missingSlash => exact hstarts ['S', 'l', 'a', 's'] rfl (by decide)
  | unrecognizedType channel tag => exact hstarts ['U', 'n', 'r', 'e'] rfl (by decide)
  | exampleWithoutArrow => exact hstarts ['A', 'r', 'r', 'o'] rfl (by decide)
  | missingValue slot => exact hstarts ['M', 'i', 's', 's'] rfl (by decide)
  | rejectedValue rejection => cases h
  | repaired repair =>
    cases repair with
    | unterminated => exact hstarts ['U', 'n', 't', 'e'] rfl (by decide)
    | _ => cases h
  | incomplete name gaps => exact hstarts ['F', 'u', 'n', 'c'] rfl (by decide)
  | other m => exact absurd rfl (hown m)

/-- A problem points at what it names, if that starts at its column. -/
theorem pointsAt_of_named? (hown : ∀ m, p ≠ .other m)
    (h : ∀ t ∈ p.named?, StartsIn line ⟨column, t⟩) : p.PointsAt line column := by
  intro opening hopening hmessage
  have htake {o : Text} (ho : o ∈ openings) (hstart : o <+: p.message) :
      p.message.take 4 = o.take 4 := by
    have hlength : ∀ o ∈ openings, 4 ≤ o.length := by decide
    obtain ⟨rest, hrest⟩ := hstart
    rw [← hrest, List.take_append_of_le_length (hlength o ho)]
  cases hnamed : p.named? with
  | none =>
    refine absurd ?_ (take_message_notMem hown hnamed)
    exact List.mem_map.mpr ⟨opening, hopening, (htake hopening hmessage).symm⟩
  | some t =>
    obtain ⟨o, ho, hstart⟩ := exists_isPrefix_message hnamed
    -- No two of the first words have the same four characters.
    have hinj : ∀ o ∈ openings, ∀ o' ∈ openings, o.take 4 = o'.take 4 → o = o' := by decide
    obtain rfl : opening = o := hinj _ hopening _ ho
      ((htake hopening hmessage).symm.trans (htake ho ((List.prefix_append o t).trans hstart)))
    exact ⟨t, rfl, hstart, h t hnamed⟩

end Problem

/-- **A finding that points into a line**: at a column of it or at its end, and at what its message
names. The arrow of a contract is missed where its second-to-last word starts, if there is one. -/
structure Finding.PointsInto (line : Text) (f : Finding) : Prop where
  column_le : f.column ≤ line.length
  pointsAt : f.problem.PointsAt line f.column
  arrow : f.problem = .contractWithoutArrow → ∀ last word before,
    (Outline.Contract.wordsOf (Outline.Payload.ofLine line).text).reverse = last :: word :: before →
      StartsIn line ⟨f.column, word.text⟩

/-- **Most problems name nothing of their line** and are told at a column of it or at its end. -/
def Problem.isSilent : Problem → Bool
  | .contractWithoutArrow | .rejectedValue _ | .repaired _ | .other _ => false
  | _ => true

theorem Finding.PointsInto.of_isSilent {p : Problem} (h : p.isSilent = true)
    (hcolumn : column ≤ line.length) : PointsInto line ⟨column, p⟩ := by
  obtain ⟨hown, hnone, harrow⟩ :
      (∀ m, p ≠ .other m) ∧ p.named? = none ∧ p ≠ .contractWithoutArrow := by
    cases p <;> simp_all [Problem.isSilent, Problem.named?]
  refine ⟨hcolumn, Problem.pointsAt_of_named? hown fun t ht => ?_, fun heq => absurd heq harrow⟩
  rw [hnone] at ht
  cases ht

/-- A token that is rejected is named in the rejection. -/
theorem Coercion.eq_of_coerce_eq_error {recognized : List Text} {token tag : Text}
    {rejection : Rejection} (h : coerce recognized token tag = .error rejection) :
    rejection = ⟨token, tag⟩ := by
  unfold coerce at h
  split_ifs at h
  split at h
  · cases h
  · split at h
    · cases h
    · exact (Except.error.inj h).symm

namespace Outline

/-! ### The payload -/

/-- **A payload that stands in a line**, with all that was found on the way to it. -/
structure Payload.StandsIn (line : Text) (p : Payload) : Prop where
  standsAt : StandsAt line p.column p.text
  findings : ∀ f ∈ p.findings, f.PointsInto line

namespace Payload

variable {findings : List Finding}

theorem standsIn_trimmed (hfindings : ∀ f ∈ findings, f.PointsInto line)
    (h : StandsAt line column part) : (trimmed findings column part).StandsIn line :=
  ⟨h.trim, hfindings⟩

/-- Without a pipe the payload is what follows the header word, or the whole line. -/
theorem standsIn_withoutPipe (line : Text) : (withoutPipe line).StandsIn line := by
  have htrim := Text.standsAt_trim line
  have hcolumn := htrim.add_length_le
  have hpipe : ∀ f ∈ [(⟨Text.leadingBlanks line, .missingPipe⟩ : Finding)], f.PointsInto line :=
    List.forall_mem_singleton.mpr (.of_isSilent rfl (Nat.le_of_add_right_le hcolumn))
  simp only [withoutPipe]
  split
  · next h hfind =>
    have hstarts : Text.startsIgnoringCase (Text.trim line) h.label = true :=
      List.find?_some (p := fun h : Heading => Text.startsIgnoringCase _ h.label) hfind
    have hword := (List.takeWhile_prefix (fun c => !Text.isBlank c)
      (l := (Text.trim line).drop h.label.length)).length_le
    exact standsIn_trimmed hpipe ((htrim.trans
      (Text.standsAt_drop (Text.length_le_of_startsIgnoringCase hstarts))).trans
        (Text.standsAt_drop hword))
  · exact ⟨htrim, hpipe⟩

/-- **The payload of a line stands in the line.** -/
theorem standsIn_ofLine (line : Text) : (ofLine line).StandsIn line := by
  rw [ofLine]
  split
  · exact standsIn_withoutPipe line
  · next c rest hpipe =>
    have hsuffix := List.dropWhile_suffix (· != '|') (l := line)
    rw [hpipe] at hsuffix
    obtain ⟨before, hbefore⟩ := (List.suffix_cons c rest).trans hsuffix
    have hlength : line.length - rest.length = before.length := by
      rw [← hbefore, List.length_append, Nat.add_sub_cancel]
    refine standsIn_trimmed (List.forall_mem_nil _) ?_
    rw [hlength]
    exact .of_append hbefore

end Payload

variable {recognized : List Text} {payload : Payload}

/-! ### Contracts -/

namespace Contract

/-- Colons are blanks to the words of a contract, so a word starts with what stands there. -/
theorem startsIn_of_mem_wordsOf {text : Text} : ∀ w ∈ wordsOf text, StartsIn text w := by
  intro w hw
  obtain ⟨c, hc, hhead, hblank⟩ := Text.startsIn_of_mem_words w hw
  rw [List.getElem?_map, Option.map_eq_some_iff] at hc
  obtain ⟨d, hd, rfl⟩ := hc
  have hcolon : d ≠ ':' := by
    rintro rfl
    exact absurd hblank (by decide)
  rw [if_neg hcolon] at hhead hblank
  exact ⟨d, hd, hhead, hblank⟩

/-- **A missing arrow is missed in the line**: at a word of the payload or at its end. -/
theorem pointsInto_of_read {f : Finding} (h : read (Payload.ofLine line) = .error f) :
    f.PointsInto line := by
  have hpayload := (Payload.standsIn_ofLine line).standsAt
  have hwords : ∀ w ∈ (wordsOf (Payload.ofLine line).text).reverse,
      StartsIn line ⟨(Payload.ofLine line).column + w.column, w.text⟩ := fun w hw =>
    (startsIn_of_mem_wordsOf w (List.mem_reverse.mp hw)).of_standsAt hpayload
  have hsilent (column : Nat) : Problem.contractWithoutArrow.PointsAt line column :=
    Problem.pointsAt_of_named? (fun _ => Problem.noConfusion) (by simp [Problem.named?])
  rw [read] at h
  split at h
  · cases h
  · obtain rfl := Except.error.inj h
    unfold arrowColumn
    cases hreverse : (wordsOf (Payload.ofLine line).text).reverse with
    | nil =>
      refine ⟨hpayload.add_length_le, hsilent _, fun _ last word before heq => ?_⟩
      rw [hreverse] at heq
      cases heq
    | cons last rest =>
      rw [hreverse] at hwords
      obtain ⟨hlast, hrest⟩ := List.forall_mem_cons.mp hwords
      cases rest with
      | nil =>
        refine ⟨hlast.lt_length.le, hsilent _, fun _ last word before heq => ?_⟩
        rw [hreverse] at heq
        cases heq
      | cons word before =>
        have hword := (List.forall_mem_cons.mp hrest).1
        refine ⟨hword.lt_length.le, hsilent _, fun _ last' word' before' heq => ?_⟩
        rw [hreverse] at heq
        cases heq
        exact hword

end Contract

/-! ### Types of the outside -/

namespace InOuts

theorem pointsInto_of_sideOf (channel : Channel) {side : Text} (h : StandsAt line column side) :
    ∀ f ∈ (sideOf recognized channel column side).2, f.PointsInto line := by
  have htrim := h.trim.add_length_le
  simp only [sideOf]
  split
  · exact List.forall_mem_nil _
  · split
    · exact List.forall_mem_nil _
    · exact List.forall_mem_singleton.mpr (.of_isSilent rfl (Nat.le_of_add_right_le htrim))

theorem pointsInto_of_channelsOf {types : Text} (h : StandsAt line column types) :
    ∀ f ∈ (channelsOf recognized column types).2.2, f.PointsInto line := by
  have hsplit := List.takeWhile_append_dropWhile (p := (· != '/')) (l := types)
  simp only [channelsOf]
  split
  · have hlength := h.add_length_le
    have htrim : (Text.trimRight types).length ≤ types.length :=
      (Text.isPrefix_dropEndWhile _ _).length_le
    exact List.forall_mem_singleton.mpr (.of_isSilent rfl (by omega))
  · next c after hslash =>
    obtain ⟨before, hbefore⟩ : ∃ before, before = types.takeWhile (· != '/') := ⟨_, rfl⟩
    rw [← hbefore] at hsplit ⊢
    rw [hslash, List.append_cons] at hsplit
    have hafter := Text.StandsAt.of_append hsplit
    rw [List.length_append, List.length_singleton] at hafter
    refine List.forall_mem_append.mpr ⟨pointsInto_of_sideOf _ (h.trans (.of_isPrefix ?_)),
      pointsInto_of_sideOf _ (by simpa only [Nat.add_assoc] using h.trans hafter)⟩
    exact hbefore ▸ List.takeWhile_prefix _

theorem pointsInto_of_apply (r : Recipe) (hpayload : StandsAt line payload.column payload.text) :
    ∀ f ∈ (apply recognized r payload).2, f.PointsInto line :=
  pointsInto_of_channelsOf (hpayload.trans (.of_isPrefix (List.takeWhile_prefix _)))

end InOuts

/-! ### Examples -/

namespace ExampleLine

theorem pointsInto_of_valueAt (slot : Slot) (tag : Text) {start stop : Nat} {token : Option Piece}
    (htoken : ∀ t ∈ token, StartsIn line ⟨start + t.column, t.text⟩) (hstop : stop ≤ line.length) :
    ∀ f ∈ (valueAt recognized slot tag start stop token).2, f.PointsInto line := by
  cases token with
  | none =>
    exact List.forall_mem_singleton.mpr (.of_isSilent rfl hstop)
  | some t =>
    rw [valueAt]
    split
    · exact List.forall_mem_nil _
    · next rejection hrejected =>
      have hstarts := htoken t rfl
      refine List.forall_mem_singleton.mpr ⟨hstarts.lt_length.le,
        Problem.pointsAt_of_named? (fun _ => Problem.noConfusion) ?_, Problem.noConfusion⟩
      rintro _ ⟨⟩
      rwa [Coercion.eq_of_coerce_eq_error hrejected]

theorem pointsInto_of_valuesAt (position : Nat) (tags : List Text) {start stop : Nat}
    {slots : List (Option Piece)}
    (hslots : ∀ t, some t ∈ slots → StartsIn line ⟨start + t.column, t.text⟩)
    (hstop : stop ≤ line.length) :
    ∀ f ∈ (valuesAt recognized start stop position tags slots).2, f.PointsInto line := by
  induction tags generalizing position slots with
  | nil => exact List.forall_mem_nil _
  | cons tag tags ih =>
    simp only [valuesAt]
    refine List.forall_mem_append.mpr ⟨pointsInto_of_valueAt _ _ (fun t ht => ?_) hstop,
      ih _ fun t ht => hslots t (List.mem_of_mem_tail ht)⟩
    cases slots with
    | nil => exact absurd ht (by simp)
    | cons slot slots => exact hslots t (List.mem_cons.mpr (Or.inl ht.symm))

/-- What is found in the tokens of a part that is trimmed is found in the part. -/
theorem pointsInto_of_tokenize (h : StandsAt line column part) (arity : Nat) :
    (∀ t, some t ∈ (tokenize (Text.trim part) arity).slots →
        StartsIn line ⟨column + Text.leadingBlanks part + t.column, t.text⟩) ∧
      ∀ f ∈ repairsAt (column + Text.leadingBlanks part) (tokenize (Text.trim part) arity),
        f.PointsInto line := by
  refine ⟨fun t ht => (startsIn_of_mem_slots ht).of_standsAt h.trim,
    List.forall_mem_map.mpr fun i hi => ?_⟩
  have hlocated := located_of_mem_issues _ arity i hi
  have hcolumn := hlocated.column_le
  have hlength := h.trim.add_length_le
  exact ⟨by simp only; omega, Problem.pointsAt_of_named? (fun _ => Problem.noConfusion)
    fun t ht => (hlocated.named t ht).of_standsAt h.trim, Problem.noConfusion⟩

theorem pointsInto_of_argumentsOf (argTypes : List Text) {before : Text}
    (h : StandsAt line column before) :
    ∀ f ∈ (argumentsOf recognized argTypes column before).2, f.PointsInto line := by
  obtain ⟨htokens, hrepairs⟩ := pointsInto_of_tokenize h argTypes.length
  have hlength := h.add_length_le
  have hstop : (Text.trimRight before).length ≤ before.length :=
    (Text.isPrefix_dropEndWhile _ _).length_le
  exact List.forall_mem_append.mpr ⟨pointsInto_of_valuesAt _ _ htokens (by omega), hrepairs⟩

theorem pointsInto_of_resultOf (returnType : Text) {after : Text} (h : StandsAt line column after) :
    ∀ f ∈ (resultOf recognized returnType column after).2, f.PointsInto line := by
  obtain ⟨htokens, hrepairs⟩ := pointsInto_of_tokenize h 1
  obtain ⟨slot, hslot⟩ := List.length_eq_one_iff.mp (length_slots_tokenize (Text.trim after) 1)
  simp only [resultOf, hslot, List.head?_cons, Option.getD_some]
  rw [hslot] at htokens
  refine List.forall_mem_append.mpr
    ⟨pointsInto_of_valueAt _ _ (fun t ht => htokens t ?_) h.add_length_le, hrepairs⟩
  exact List.mem_singleton.mpr ht.symm

theorem pointsInto_of_read (argTypes : List Text) (returnType : Text)
    (hpayload : StandsAt line payload.column payload.text) :
    ∀ f ∈ (read recognized argTypes returnType payload).2, f.PointsInto line := by
  obtain ⟨body, hbody⟩ : ∃ body, body = if (payload.text.dropWhile (· != '#')).isEmpty
      then payload.text else Text.trimRight (payload.text.takeWhile (· != '#')) := ⟨_, rfl⟩
  have hstart : body <+: payload.text := by
    rw [hbody]
    split
    · exact List.prefix_rfl
    · exact (Text.isPrefix_dropEndWhile _ _).trans (List.takeWhile_prefix _)
  have hstands : StandsAt line payload.column body := hpayload.trans (.of_isPrefix hstart)
  simp only [read, ← hbody]
  split
  · exact List.forall_mem_singleton.mpr (.of_isSilent rfl hstands.add_length_le)
  · next before after hsplit =>
    -- The arrow lies between the two parts.
    have hparted := (partedAtArrow_of_splitArrow hsplit).eq
    have hbefore : before <+: body := ⟨arrow ++ after, by rw [hparted, List.append_assoc]⟩
    have hafter := Text.StandsAt.of_append hparted.symm
    refine List.forall_mem_append.mpr
      ⟨pointsInto_of_argumentsOf _ (hstands.trans (.of_isPrefix hbefore)),
        pointsInto_of_resultOf _ ?_⟩
    rw [List.length_append] at hafter
    simpa only [Nat.add_assoc] using hstands.trans hafter

theorem pointsInto_of_apply (r : Recipe) (hpayload : StandsAt line payload.column payload.text) :
    ∀ f ∈ (apply recognized r payload).2, f.PointsInto line := by
  simp only [apply]
  split
  · exact List.forall_mem_nil _
  · exact pointsInto_of_read _ _ hpayload

end ExampleLine

/-! ### All sections -/

/-- **What a section finds wrong with a line is found in the line.** -/
theorem Session.pointsInto_of_readSection (options : Options) (heading : Heading) (line : Text)
    (r : Recipe) : ∀ f ∈ (readSection options heading line r).2, f.PointsInto line := by
  have hpayload := Payload.standsIn_ofLine line
  cases heading with
  | purpose => exact hpayload.findings
  | inOuts =>
    exact List.forall_mem_append.mpr
      ⟨hpayload.findings, InOuts.pointsInto_of_apply r hpayload.standsAt⟩
  | «example» =>
    exact List.forall_mem_append.mpr
      ⟨hpayload.findings, ExampleLine.pointsInto_of_apply r hpayload.standsAt⟩
  | none => exact List.forall_mem_nil _
  | contract => exact List.forall_mem_nil _

end Outline

end DesignRecipe

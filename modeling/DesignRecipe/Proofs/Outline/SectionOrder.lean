import DesignRecipe.Proofs.Outline.Run

/-!
# The order of sections

A header counts only if its section does not come before the one that the reading is in, and
an arrow starts the section that comes last. So from one line of a recipe to the next the rank
of the section does not fall, as long as there is a section to compare with.

A line that continues a section is in no section itself, and no section comes before all
others. So the order is kept between two lines of a block if no such line stands between them,
and behind such a line every header counts again, also one of a section that has been passed
(`Session.rank_le_rank_of_feedAll`).
-/

namespace DesignRecipe

/-- A text that starts with a label starts with the first letter of the label. -/
theorem Text.head?_of_startsIgnoringCase {s label : Text} (hlabel : label ≠ [])
    (h : startsIgnoringCase s label = true) :
    s.head?.map Char.toLower = label.head?.map Char.toLower := by
  obtain ⟨c, label, rfl⟩ := List.exists_cons_of_ne_nil hlabel
  cases s with
  | nil => simp [startsIgnoringCase, equalsIgnoringCase] at h
  | cons d rest =>
    simp only [startsIgnoringCase, equalsIgnoringCase, List.length_cons, List.take_succ_cons,
      List.map_cons, beq_iff_eq, List.cons.injEq] at h
    simp [h.1]

namespace Outline

namespace State

variable {s : State} {line : Text} {h h' : Heading}

/-! ### From one line to the next -/

/-- No section comes after the examples. -/
theorem rank_le_rank_example (h : Heading) : h.rank ≤ Heading.rank .example := by
  cases h <;> decide

/-- **A line starts no section before the one that the reading is in.** -/
theorem rank_le_rank_of_detect? (hd : s.detect? line = some h) : s.heading.rank ≤ h.rank := by
  have hstarts : s.starts line h = true := List.find?_some hd
  rw [starts, Bool.or_eq_true, Bool.and_eq_true, Bool.and_eq_true, allows] at hstarts
  rcases hstarts with ⟨-, hallows⟩ | ⟨hexample, -⟩
  · exact of_decide_eq_true hallows
  · rw [of_decide_eq_true hexample]
    exact rank_le_rank_example _

/-- **From a line of a recipe to the next line the rank does not fall**, unless the next line is
in no section. -/
theorem rank_le_rank_next (hregion : s.region = .recipe) (hdelimits : delimits line = false)
    (hsection : s.next line ≠ ⟨.recipe, .none⟩) :
    (s.next line).region = .recipe ∧ s.heading.rank ≤ (s.next line).heading.rank := by
  generalize ht : s.next line = t at hsection
  cases move_of_next ht with
  | cross hd => rw [hd] at hdelimits; exact absurd hdelimits (by decide)
  | stay _ hne => exact absurd hregion hne
  | comment _ houtside => rw [hregion] at houtside; exact absurd houtside (by decide)
  | enter _ hblock => rw [hregion] at hblock; exact absurd hblock (by decide)
  | go =>
    refine ⟨rfl, ?_⟩
    cases hd : s.detect? (Text.trim line) with
    | none => rw [hd] at hsection; exact absurd rfl hsection
    | some h => exact rank_le_rank_of_detect? hd

/-- A section is left for none by a delimiter only. -/
theorem delimits_eq_false_of_next (hsection : (s.next line).heading ≠ .none) :
    delimits line = false := by
  by_contra hdelimits
  rw [Bool.not_eq_false] at hdelimits
  rw [next_of_delimits hdelimits] at hsection
  split at hsection <;> exact hsection rfl

/-! ### Behind a line in no section -/

/-- **A line has one header at most**, since no two headers start with the same letter. -/
theorem eq_of_startsIgnoringCase (hh : h ∈ Heading.labelled) (hh' : h' ∈ Heading.labelled)
    (hlabel : Text.startsIgnoringCase line h.label = true)
    (hlabel' : Text.startsIgnoringCase line h'.label = true) : h = h' := by
  have hne : ∀ h ∈ Heading.labelled, h.label ≠ [] := by decide
  have hletter : h.label.head?.map Char.toLower = h'.label.head?.map Char.toLower :=
    (Text.head?_of_startsIgnoringCase (hne h hh) hlabel).symm.trans
      (Text.head?_of_startsIgnoringCase (hne h' hh') hlabel')
  have hdistinct : ∀ h ∈ Heading.labelled, ∀ h' ∈ Heading.labelled,
      h.label.head?.map Char.toLower = h'.label.head?.map Char.toLower → h = h' := by decide
  exact hdistinct h hh h' hh' hletter

/-- A header is no delimiter. -/
theorem delimits_eq_false_of_header (hh : h ∈ Heading.labelled)
    (hlabel : Text.startsIgnoringCase (Text.trim line) h.label = true) : delimits line = false := by
  by_contra hdelimits
  rw [Bool.not_eq_false, delimits, isDelimiter, List.isPrefixOf_iff_prefix] at hdelimits
  obtain ⟨rest, hrest⟩ := hdelimits
  have hlabelNe : ∀ h ∈ Heading.labelled, h.label ≠ [] := by decide
  have hquote : ∀ h ∈ Heading.labelled, some '"' ≠ h.label.head?.map Char.toLower := by decide
  have hhead := Text.head?_of_startsIgnoringCase (hlabelNe h hh) hlabel
  rw [← hrest] at hhead
  exact hquote h hh hhead

/-- **A header of the section counts**: the line stands in a block, and the reading is not past the
section. -/
def honors (s : State) (h : Heading) : Bool := s.inBlock && s.allows h

/-- A header that counts is the one that is detected. -/
theorem detect?_of_header (hallows : s.allows h = true) (hh : h ∈ Heading.labelled)
    (hlabel : Text.startsIgnoringCase line h.label = true) : s.detect? line = some h := by
  have hother : ∀ h' ∈ Heading.labelled, h' ≠ h →
      Text.startsIgnoringCase line h'.label = false := by
    intro h' hh' hne
    by_contra hlabel'
    rw [Bool.not_eq_false] at hlabel'
    exact hne (eq_of_startsIgnoringCase hh' hh hlabel' hlabel)
  -- The sections before this one in the list have another header, and none of them has an arrow.
  have hcases := hh
  simp only [Heading.labelled, List.mem_cons, List.not_mem_nil, or_false] at hcases
  rcases hcases with rfl | rfl | rfl | rfl <;>
    simp [detect?, Heading.labelled, starts, hallows, hlabel, hother .contract (by decide),
      hother .purpose (by decide), hother .inOuts (by decide)]

/-- **A header that counts leads to its section.** -/
theorem next_of_honors (hhonors : s.honors h = true) (hh : h ∈ Heading.labelled)
    (hlabel : Text.startsIgnoringCase (Text.trim line) h.label = true) :
    s.next line = ⟨.recipe, h⟩ := by
  obtain ⟨hblock, hallows⟩ := Bool.and_eq_true_iff.mp hhonors
  have hregion : s.region = .block ∨ s.region = .recipe := of_decide_eq_true hblock
  have hdetect := detect?_of_header hallows hh hlabel
  generalize ht : s.next line = t
  cases move_of_next ht with
  | cross hd =>
    rw [delimits_eq_false_of_header hh hlabel] at hd
    exact absurd hd (by decide)
  | stay _ hrecipe _ hnone =>
    rw [hnone (hregion.resolve_right hrecipe)] at hdetect
    exact absurd hdetect (by simp)
  | comment _ houtside => simp [houtside] at hregion
  | enter _ _ hd => rw [Option.some_inj.mp (hd.symm.trans hdetect)]
  | go => rw [hdetect]; rfl

/-- **Where there is no section to compare with every header counts.** -/
theorem next_of_header (hh : h ∈ Heading.labelled)
    (hlabel : Text.startsIgnoringCase (Text.trim line) h.label = true) :
    next ⟨.recipe, .none⟩ line = ⟨.recipe, h⟩ :=
  next_of_honors (by simp [honors, inBlock, allows, Heading.rank]) hh hlabel

end State

namespace Session

variable {options : Options} {s t u : Session} {lines middle : List Text} {line : Text}

/-! ### Runs -/

/-- Along lines of a recipe that are all in a section the rank does not fall. -/
theorem rank_le_rank_of_unbroken (hregion : s.state.region = .recipe)
    (h : s.feedAll options lines = .ok t) (hdelimits : ∀ l ∈ lines, State.delimits l = false)
    (hunbroken : ∀ before u, before ≠ [] → before <+: lines → s.feedAll options before = .ok u →
      u.state ≠ ⟨.recipe, .none⟩) :
    t.state.region = .recipe ∧ s.state.heading.rank ≤ t.state.heading.rank := by
  induction lines using List.reverseRecOn generalizing t with
  | nil =>
    rw [feedAll, Except.ok.injEq] at h
    exact h ▸ ⟨hregion, Nat.le_refl _⟩
  | append_singleton lines line ih =>
    have hsection := hunbroken _ t (by simp) List.prefix_rfl h
    obtain ⟨u, hu, hfeed⟩ := feedAll_concat_eq_ok.mp h
    obtain ⟨hlines, hline⟩ := List.forall_mem_append.mp hdelimits
    obtain ⟨hregion', hrank⟩ := ih hu hlines fun before v hne hbegins =>
      hunbroken before v hne (hbegins.trans (List.prefix_append _ _))
    rw [(notes_of_feed hfeed).state] at hsection ⊢
    obtain ⟨hrecipe, hnext⟩ :=
      State.rank_le_rank_next hregion' (hline line (List.mem_singleton_self line)) hsection
    exact ⟨hrecipe, hrank.trans hnext⟩

/-- **Sections keep their order within a block as long as none is interrupted.** Where two
lines of a block are in sections, the later one is in no earlier section, or else a line
that is in no section stands between them, behind which every header counts again. -/
theorem rank_le_rank_of_feedAll (options : Options) (s t : Session) (middle : List Text)
    (line : Text) (h : s.feedAll options (middle ++ [line]) = .ok t)
    (hdelimits : ∀ l ∈ middle, State.delimits l = false)
    (hregion : s.state.region = .recipe) (hsection : t.state.heading ≠ .none) :
    s.state.heading.rank ≤ t.state.heading.rank ∨
      ∃ before u, before ≠ [] ∧ before <+: middle ∧ s.feedAll options before = .ok u ∧
        u.state = ⟨.recipe, .none⟩ ∧
        ∀ heading ∈ Heading.labelled, ∀ header,
          Text.startsIgnoringCase (Text.trim header) heading.label = true →
            u.state.next header = ⟨.recipe, heading⟩ := by
  by_cases hbroken : ∃ before u, before ≠ [] ∧ before <+: middle ∧
      s.feedAll options before = .ok u ∧ u.state = ⟨.recipe, .none⟩
  · obtain ⟨before, u, hne, hbegins, hu, hstate⟩ := hbroken
    refine Or.inr ⟨before, u, hne, hbegins, hu, hstate, fun heading hheading header hlabel => ?_⟩
    rw [hstate]
    exact State.next_of_header hheading hlabel
  · obtain ⟨u, hu, hfeed⟩ := feedAll_concat_eq_ok.mp h
    obtain ⟨hregion', hrank⟩ := rank_le_rank_of_unbroken hregion hu hdelimits
      fun before v hne hbegins hv hstate => hbroken ⟨before, v, hne, hbegins, hv, hstate⟩
    rw [(notes_of_feed hfeed).state] at hsection ⊢
    have hnext := State.rank_le_rank_next hregion' (State.delimits_eq_false_of_next hsection)
      fun hnone => hsection (congrArg State.heading hnone)
    exact Or.inl (hrank.trans hnext.2)

/-- The start of a block, up to its contract. -/
def opening : List Text := ["\"\"\"", "CONTRACT | f : int -> int"]

theorem rank_le_rank_of_feedAll_sample : ∃ s t, start.feedAll .standard opening = .ok s ∧
    s.feedAll .standard (["PURPOSE | Doubles `n`."] ++ ["EXAMPLE | 1 -> 2"]) = .ok t ∧
    s.state.heading = .contract ∧ t.state.heading = .example ∧
    s.state.heading.rank ≤ t.state.heading.rank := by
  obtain ⟨s, t, hs, ht, hregion, hcontract, hexample, hpurpose⟩ : ∃ s t,
      start.feedAll .standard opening = .ok s ∧
      s.feedAll .standard (["PURPOSE | Doubles `n`."] ++ ["EXAMPLE | 1 -> 2"]) = .ok t ∧
      s.state.region = .recipe ∧ s.state.heading = .contract ∧ t.state.heading = .example ∧
      s.state.next "PURPOSE | Doubles `n`." = ⟨.recipe, .purpose⟩ :=
    ⟨_, _, rfl, rfl, rfl, rfl, rfl, rfl⟩
  refine ⟨s, t, hs, ht, hcontract, hexample, ?_⟩
  rcases rank_le_rank_of_feedAll .standard s t _ _ ht (by decide) hregion (by simp [hexample]) with
    hrank | ⟨before, u, hne, hbegins, hu, hstate, -⟩
  · exact hrank
  · -- The one line between them is in a section.
    obtain ⟨rest, rfl, hrest⟩ := (List.prefix_cons_iff.mp hbegins).resolve_left hne
    obtain rfl := List.prefix_nil.mp hrest
    obtain ⟨v, hfeed, hv⟩ := feedAll_cons_eq_ok.mp hu
    obtain rfl := Except.ok.inj hv
    rw [(notes_of_feed hfeed).state, hpurpose] at hstate
    exact absurd hstate (by decide)

/-- **A line that is in no section lets a section come back** that has been passed: here the
purpose after the types of the outside. -/
theorem not_rank_le_rank : ¬∀ (options : Options) (first middle : List Text) (line : Text)
    (s t : Session), start.feedAll options first = .ok s →
      s.feedAll options (middle ++ [line]) = .ok t →
      (∀ l ∈ middle, State.delimits l = false) →
      s.state.region = .recipe → s.state.heading ≠ .none →
      t.state.region = .recipe → t.state.heading ≠ .none →
      s.state.heading.rank ≤ t.state.heading.rank := by
  obtain ⟨s, t, hs, ht, hstate, hstate'⟩ : ∃ s t,
      start.feedAll .standard (opening ++ (["IN/OUTS | None/None"] : List Text)) = .ok s ∧
      s.feedAll .standard (["for small numbers"] ++ ["PURPOSE | Doubles `n`."]) = .ok t ∧
      s.state = ⟨.recipe, .inOuts⟩ ∧ t.state = ⟨.recipe, .purpose⟩ := ⟨_, _, rfl, rfl, rfl, rfl⟩
  intro h
  have hrank := h .standard _ _ _ s t hs ht (by decide) (by rw [hstate]) (by rw [hstate]; decide)
    (by rw [hstate']) (by rw [hstate']; decide)
  rw [hstate, hstate'] at hrank
  exact absurd hrank (by decide)

end Session

end Outline

end DesignRecipe

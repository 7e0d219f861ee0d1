import DesignRecipe.Proofs.Outline.Run
import DesignRecipe.Proofs.Outline.Segments
import Mathlib.Data.List.Forall2

/-!
# Every line is accounted for

An outline that is read to its end gives one recipe for each contract line, and what a
recipe keeps of the lines is what its segment says: the lines of the design recipe, each as
it stands, and the comments of the body outline.

The invariant of the run (`Accounted`) ties the segments of the lines read so far to the
finished recipes and the one under construction, which answers for the last segment. A
contract line starts a new segment at the very moment when it finishes the recipe before,
so that no line is counted twice.
-/

namespace DesignRecipe.Outline

/-- **A recipe keeps what its segment says**: the contract is that of the first line, the
lines are those of the design recipe, and the outline holds the comments of the body. -/
structure Describes (segment : List Placed) (r : Recipe) : Prop where
  contract : ∃ p rest c, segment = p :: rest ∧
    Contract.read (Payload.ofLine (Text.dropLineEnd p.line)) = .ok c ∧
    r.name = c.name ∧ r.argTypes = Recipe.declaredTypes c.argTypes ∧ r.returnType = c.returnType
  lines : r.lines = (segment.filter Placed.inRecipe).map fun p => kept p.state.heading p.line
  outline : r.outline.map OutlineEntry.text =
    (segment.filter Placed.isEntry).map fun p => Text.trim p.line

namespace Describes

variable {segment : List Placed} {p : Placed} {r r' : Recipe}

/-- A contract line is the whole of its segment at first. -/
theorem of_opens {c : Contract} (hp : p.state = ⟨.recipe, .contract⟩)
    (hread : Contract.read (Payload.ofLine (Text.dropLineEnd p.line)) = .ok c) :
    Describes [p] (Session.record (Text.dropLineEnd p.line) c.recipe) where
  contract := ⟨p, [], c, rfl, hread, rfl, rfl, rfl⟩
  lines := by simp [Session.record, Contract.recipe, Recipe.ofContract, Placed.inRecipe, hp, kept]
  outline := by simp [Session.record, Contract.recipe, Recipe.ofContract, Placed.isEntry, hp]

/-- A line that is added to a recipe is added to its segment. -/
theorem concat_of_continues (h : Describes segment r) (hp : p.state.region = .recipe)
    (hcontinues : Continues (kept p.state.heading p.line) r r') :
    Describes (segment ++ [p]) r' where
  contract := by
    obtain ⟨q, rest, c, rfl, hread, hname, hargs, hreturn⟩ := h.contract
    exact ⟨q, rest ++ [p], c, rfl, hread, hcontinues.name.trans hname,
      hcontinues.argTypes.trans hargs, hcontinues.returnType.trans hreturn⟩
  lines := by
    rw [hcontinues.lines, h.lines]
    simp [Placed.inRecipe, hp]
  outline := by
    rw [hcontinues.outline, h.outline]
    simp [Placed.isEntry, hp]

/-- A comment that becomes an entry is added to the segment. -/
theorem concat_of_isEntry (h : Describes segment r) (hp : p.isEntry = true) {entry : OutlineEntry}
    (hentry : entry.text = Text.trim p.line) :
    Describes (segment ++ [p]) { r with outline := r.outline ++ [entry] } where
  contract := by
    obtain ⟨q, rest, c, rfl, hread, hname, hargs, hreturn⟩ := h.contract
    exact ⟨q, rest ++ [p], c, rfl, hread, hname, hargs, hreturn⟩
  lines := by
    have hregion : p.inRecipe = false := by
      simp only [Placed.isEntry, decide_eq_true_eq] at hp
      simp [Placed.inRecipe, hp.1]
    simp [h.lines, hregion]
  outline := by simp [h.outline, hp, hentry]

/-- A line that is neither is passed over. -/
theorem concat_of_idle (h : Describes segment r) (hrecipe : p.inRecipe = false)
    (hentry : p.isEntry = false) : Describes (segment ++ [p]) r where
  contract := by
    obtain ⟨q, rest, c, rfl, hread, hname, hargs, hreturn⟩ := h.contract
    exact ⟨q, rest ++ [p], c, rfl, hread, hname, hargs, hreturn⟩
  lines := by simp [h.lines, hrecipe]
  outline := by simp [h.outline, hentry]

end Describes

namespace Session

variable {options : Options} {s t : Session} {lines more : List Text} {line : Text}

/-! ### The invariant -/

/-- **The invariant of a run**: the finished recipes keep what all segments but the last
one say, and the recipe under construction keeps what the last one says. -/
inductive Accounted : List (List Placed) → Session → Prop
  /-- No recipe has been started. -/
  | empty {s : Session} : s.current = none → s.finished = [] → Accounted [] s
  /-- The last segment is that of the recipe under construction. -/
  | concat {s : Session} {front : List (List Placed)} {last : List Placed} {r : Recipe} :
      List.Forall₂ Describes front s.finished → s.current = some r → Describes last r →
      Accounted (front ++ [last]) s

/-- A contract line finishes the last segment and starts a new one. -/
theorem Accounted.open {ps : List Placed} {p : Placed} {r : Recipe}
    (h : Accounted (segments ps) s) (hp : p.opens = true)
    (hfinished : t.finished = s.finished ++ s.current.toList) (hcurrent : t.current = some r)
    (hr : Describes [p] r) : Accounted (segments (ps ++ [p])) t := by
  rw [segments_concat_of_opens hp]
  refine .concat ?_ hcurrent hr
  rw [hfinished]
  generalize segments ps = all at h
  cases h with
  | empty hnone hempty =>
    rw [hnone, hempty]
    exact .nil
  | concat hfront hlast hdescribes =>
    rw [hlast]
    exact List.rel_append hfront (.cons hdescribes .nil)

/-- Every other line is added to the last segment. -/
theorem Accounted.grow {ps : List Placed} {p : Placed} (h : Accounted (segments ps) s)
    (hp : p.opens = false) (hfinished : t.finished = s.finished)
    (hnone : s.current = none → t.current = none)
    (hsome : ∀ r, s.current = some r → ∃ r', t.current = some r' ∧
      ∀ segment, Describes segment r → Describes (segment ++ [p]) r') :
    Accounted (segments (ps ++ [p])) t := by
  rcases segments_concat ps hp with ⟨hnil, hnil'⟩ | ⟨front, last, hall, hall'⟩
  · -- A line before the first contract line belongs to no segment.
    rw [hnil] at h
    rw [hnil']
    generalize hempty : ([] : List (List Placed)) = all at h
    cases h with
    | empty hcurrent hs => exact .empty (hnone hcurrent) (hfinished.trans hs)
    | concat => exact absurd hempty (by simp)
  · rw [hall] at h
    rw [hall']
    generalize heq : front ++ [last] = all at h
    cases h with
    | empty => exact absurd heq (by simp)
    | concat hfront hcurrent hdescribes =>
      obtain ⟨rfl, hlast⟩ := List.append_inj' heq rfl
      obtain rfl := List.singleton_inj.mp hlast
      obtain ⟨r', hr', hgrow⟩ := hsome _ hcurrent
      exact .concat (hfinished ▸ hfront) hr' (hgrow _ hdescribes)

/-- A line that is added to the recipe under construction is added to the last segment. -/
theorem Accounted.extend {ps : List Placed} {p : Placed} {r r' : Recipe}
    (h : Accounted (segments ps) s) (hp : p.opens = false) (hfinished : t.finished = s.finished)
    (hcurrent : s.current = some r) (hcurrent' : t.current = some r')
    (hgrow : ∀ segment, Describes segment r → Describes (segment ++ [p]) r') :
    Accounted (segments (ps ++ [p])) t := by
  refine h.grow hp hfinished ?_ ?_
  · intro hnone
    rw [hnone] at hcurrent
    exact absurd hcurrent (by simp)
  · intro r₀ hr₀
    obtain rfl := Option.some_inj.mp (hcurrent.symm.trans hr₀)
    exact ⟨r', hcurrent', hgrow⟩

/-- **Every run is accounted for.** -/
theorem accounted_of_feedAll (h : start.feedAll options lines = .ok s) :
    Accounted (segments (place lines)) s := by
  refine feedAll_induction (P := fun lines s => Accounted (segments (place lines)) s)
    (.empty rfl rfl) ?_ h
  intro lines line s t hs ih hfeed
  rw [place_concat, ← state_of_feedAll hs]
  have hfinished := finished_of_feed hfeed
  -- Only a contract line finishes a recipe.
  have hcloses (hne : s.state.next line ≠ ⟨.recipe, .contract⟩) : t.finished = s.finished := by
    rw [hfinished, if_neg hne, List.append_nil]
  cases turn_of_feed hfeed with
  | idle hrecipe howned hcurrent =>
    have hne := State.ne_contract_of_region hrecipe
    refine ih.grow (by simpa [Placed.opens] using hne) (hcloses hne) (hcurrent.trans ·) ?_
    refine fun r hr => ⟨r, hcurrent.trans hr, fun segment hsegment => ?_⟩
    refine hsegment.concat_of_idle (by simpa [Placed.inRecipe] using hrecipe) ?_
    simpa only [Placed.isEntry, decide_eq_false_iff_not] using fun hc => howned (Or.inr hc)
  | opens hstate hread hcurrent =>
    rw [if_pos hstate] at hfinished
    exact ih.open (by simp [Placed.opens, hstate]) hfinished hcurrent
      (Describes.of_opens (p := ⟨line, s.state.next line⟩) hstate hread)
  | lost hstate hnone hnone' =>
    have hne : s.state.next line ≠ ⟨.recipe, .contract⟩ := by rw [hstate]; decide
    refine ih.grow (by simpa [Placed.opens] using hne) (hcloses hne) (fun _ => hnone') ?_
    intro r hr
    rw [hnone] at hr
    exact absurd hr (by simp)
  | grows hrecipe hne hcurrent hcurrent' hcontinues =>
    exact ih.extend (by simpa [Placed.opens] using hne) (hcloses hne) hcurrent hcurrent'
      fun segment hsegment => hsegment.concat_of_continues hrecipe hcontinues
  | outlines hbody howned hcurrent hcurrent' =>
    have hne := howned.ne_contract
    refine ih.extend (by simpa [Placed.opens] using hne) (hcloses hne) hcurrent hcurrent' ?_
    intro segment hsegment
    refine hsegment.concat_of_isEntry ?_ (Text.trim_dropLineEnd line)
    simpa [Placed.isEntry, Owned, hbody] using howned

/-- The recipe under construction is that of the last contract line. -/
theorem countP_opens_of_current {r : Recipe} (hs : start.feedAll options lines = .ok s)
    (hr : s.current = some r) : (place lines).countP Placed.opens = s.finished.length + 1 := by
  rw [← length_segments]
  have haccounted := accounted_of_feedAll hs
  generalize segments (place lines) = all at haccounted
  cases haccounted with
  | empty hnone =>
    rw [hr] at hnone
    exact absurd hnone (by simp)
  | concat hfront => rw [List.length_append, hfront.length_eq, List.length_singleton]

/-! ### What is finished stays -/

/-- Recipes once finished stay as they are while more lines are read. -/
theorem finished_prefix_of_feedAll (h : s.feedAll options lines = .ok t) :
    s.finished <+: t.finished := by
  induction lines generalizing s with
  | nil =>
    rw [feedAll, Except.ok.injEq] at h
    exact h ▸ List.prefix_rfl
  | cons line lines ih =>
    rw [feedAll] at h
    cases hfeed : s.feed options line with
    | error a => simp [hfeed] at h
    | ok u =>
      rw [hfeed] at h
      refine List.IsPrefix.trans ?_ (ih h)
      rw [finished_of_feed hfeed]
      exact List.prefix_append _ _

/-- The reading that a run passes through after some of its lines. -/
theorem exists_feedAll_take (h : start.feedAll options lines = .ok t) (i : Nat) :
    ∃ s, start.feedAll options (lines.take i) = .ok s ∧
      s.feedAll options (lines.drop i) = .ok t := by
  rw [← List.take_append_drop i lines] at h
  exact feedAll_append_eq_ok.mp h

/-! ### The end of a reading -/

/-- A reading that ends well gives the finished recipes and the one under construction. -/
theorem exists_current_of_finish {out : Output} (h : s.finish = .ok out) :
    ∃ r, s.current = some r ∧ out.recipes = s.finished ++ [r] := by
  cases hcurrent : s.current with
  | none => simp [finish, hcurrent] at h
  | some r =>
    simp only [finish, hcurrent, Option.isNone_some, Bool.false_eq_true, if_false,
      Except.ok.injEq] at h
    exact ⟨r, rfl, by simp [← h, hcurrent]⟩

end Session

theorem readLines_eq_ok {options : Options} {lines : List Text} {out : Output} :
    readLines options lines = .ok out ↔
      ∃ s, Session.start.feedAll options lines = .ok s ∧ s.finish = .ok out := by
  rw [readLines]
  cases Session.start.feedAll options lines with
  | error a => simp
  | ok s => simp

/-- **Every line is accounted for.** An outline that is read to its end gives one recipe for
each contract line, in their order, and each keeps what its segment says. The reading is in
the state of each line after it, and along the way recipes are only added to the finished
ones, up to those of the output. -/
theorem line_accounting (options : Options) (lines : List Text) (out : Output)
    (h : readLines options lines = .ok out) :
    List.Forall₂ Describes (segments (place lines)) out.recipes ∧
      out.recipes.length = (place lines).countP Placed.opens ∧
      (∀ i line, lines[i]? = some line →
        ∃ s, Session.start.feedAll options (lines.take (i + 1)) = .ok s ∧
          (place lines)[i]? = some ⟨line, s.state⟩) ∧
      ∀ i j, i ≤ j → ∃ s t, Session.start.feedAll options (lines.take i) = .ok s ∧
        Session.start.feedAll options (lines.take j) = .ok t ∧
        s.finished <+: t.finished ∧ t.finished <+: out.recipes := by
  obtain ⟨u, hu, hfinish⟩ := readLines_eq_ok.mp h
  obtain ⟨r, hcurrent, hrecipes⟩ := Session.exists_current_of_finish hfinish
  have hdescribes : List.Forall₂ Describes (segments (place lines)) out.recipes := by
    have haccounted := Session.accounted_of_feedAll hu
    generalize segments (place lines) = all at haccounted
    cases haccounted with
    | empty hnone =>
      rw [hnone] at hcurrent
      exact absurd hcurrent (by simp)
    | concat hfront hlast hr =>
      obtain rfl := Option.some_inj.mp (hlast.symm.trans hcurrent)
      rw [hrecipes]
      exact List.rel_append hfront (.cons hr .nil)
  refine ⟨hdescribes, ?_, ?_, ?_⟩
  · rw [← hdescribes.length_eq, length_segments]
  · intro i line hline
    obtain ⟨s, hs, _⟩ := Session.exists_feedAll_take hu (i + 1)
    refine ⟨s, hs, ?_⟩
    rw [getElem?_place, hline, Session.state_of_feedAll hs]
    rfl
  · intro i j hij
    obtain ⟨t, ht, hrest⟩ := Session.exists_feedAll_take hu j
    obtain ⟨s, hs, hbetween⟩ := Session.exists_feedAll_take ht i
    rw [List.take_take, Nat.min_eq_left hij] at hs
    refine ⟨s, t, hs, ht, Session.finished_prefix_of_feedAll hbetween, ?_⟩
    rw [hrecipes]
    exact (Session.finished_prefix_of_feedAll hrest).trans (List.prefix_append _ _)

theorem line_accounting_sample : ∃ out, readLines .standard Session.sample = .ok out ∧
    List.Forall₂ Describes (segments (place Session.sample)) out.recipes ∧
    out.recipes.length = 2 := by
  obtain ⟨out, hout⟩ : ∃ out, readLines .standard Session.sample = .ok out := ⟨_, rfl⟩
  obtain ⟨hdescribes, hlength, _⟩ := line_accounting .standard Session.sample out hout
  exact ⟨out, hout, hdescribes, hlength.trans (by decide)⟩

end DesignRecipe.Outline

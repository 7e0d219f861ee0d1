import DesignRecipe.Proofs.Outline.Composition

/-!
# A recipe is read from its segment

What a recipe holds in the end depends on nothing but its segment, the lines from its contract
line up to the next one, each with the state after it (`recipeOf`). So a law about the recipes
of an outline is a law about one segment, and is shown by going through its lines once.

The run is compared with its segments line by line. A contract line forgets the recipe before
it, so that reading starts anew with its segment; every other line goes on with the recipe of
the last segment, if there is one.
-/

namespace DesignRecipe.Outline

open Session

/-! ### Reading a segment by itself -/

/-- The recipe under construction after a line in its place. -/
def Placed.read (options : Options) (current : Option Recipe) (p : Placed) : Option Recipe :=
  currentAfter options p.state (Text.dropLineEnd p.line) current

/-- **The recipe that a segment gives**, whatever stands before and after it. -/
def recipeOf (options : Options) (segment : List Placed) : Option Recipe :=
  segment.foldl (Placed.read options) none

variable {options : Options} {lines : List Text} {ps : List Placed} {p : Placed}

theorem recipeOf_concat (segment : List Placed) (p : Placed) :
    recipeOf options (segment ++ [p]) = p.read options (recipeOf options segment) := by
  rw [recipeOf, List.foldl_append]
  rfl

/-- A contract line forgets the recipe before it. -/
theorem Placed.read_of_opens (hp : p.opens = true) (current : Option Recipe) :
    p.read options current = p.read options none := by
  have hstate : p.state = ⟨.recipe, .contract⟩ := of_decide_eq_true hp
  rw [Placed.read, Placed.read, currentAfter, currentAfter, if_pos hstate, if_pos hstate]

/-- Every other line goes on with a recipe if there is one. -/
theorem Placed.isSome_read (options : Options) (hp : p.opens = false) (current : Option Recipe) :
    (p.read options current).isSome = current.isSome := by
  have hstate : p.state ≠ ⟨.recipe, .contract⟩ := of_decide_eq_false hp
  rw [Placed.read, currentAfter, if_neg hstate]
  split
  · exact Option.isSome_map
  · split
    · exact Option.isSome_map
    · rfl
  · rfl

/-- A recipe starts as its contract line says. -/
theorem Placed.exists_contract {r : Recipe} (hp : p.opens = true)
    (hr : p.read options none = some r) :
    ∃ c : Contract, r = record (Text.dropLineEnd p.line) c.recipe := by
  have hstate : p.state = ⟨.recipe, .contract⟩ := of_decide_eq_true hp
  rw [Placed.read, currentAfter, if_pos hstate] at hr
  split at hr
  · next c _ => exact ⟨c, (Option.some_inj.mp hr).symm⟩
  · exact absurd hr (by simp)

/-- The entry that a comment in its place makes. -/
def Placed.entry (options : Options) (p : Placed) : OutlineEntry :=
  Body.entry options.indentWidth (Text.dropLineEnd p.line)

/-- **What every other line does to a recipe**: it goes to the reader of its section, it adds an
entry to the outline, or it does nothing. -/
theorem Placed.cases_of_read {r r' : Recipe} (hp : p.opens = false)
    (hr : p.read options (some r) = some r') :
    (p.state.region = .recipe ∧
      r' = (readSection options p.state.heading (Text.dropLineEnd p.line) r).1) ∨
    (p.state.region = .body ∧ p.isEntry = true ∧
      r' = { r with outline := r.outline ++ [p.entry options] }) ∨
    (p.state.region ≠ .recipe ∧ p.isEntry = false ∧ r' = r) := by
  have hstate : p.state ≠ ⟨.recipe, .contract⟩ := of_decide_eq_false hp
  obtain ⟨line, region, heading⟩ := p
  rw [Placed.read, currentAfter, if_neg hstate] at hr
  cases region with
  | recipe => exact .inl ⟨rfl, (Option.some_inj.mp hr).symm⟩
  | body =>
    simp only [Body.isEntry, Text.trim_dropLineEnd] at hr
    split at hr
    · next hentry =>
      exact .inr (.inl ⟨rfl, by simpa [isEntry] using hentry, (Option.some_inj.mp hr).symm⟩)
    · next hentry =>
      exact .inr (.inr ⟨by simp, by simpa [isEntry] using hentry, (Option.some_inj.mp hr).symm⟩)
  | outside => exact .inr (.inr ⟨by simp, by simp [isEntry], (Option.some_inj.mp hr).symm⟩)
  | block => exact .inr (.inr ⟨by simp, by simp [isEntry], (Option.some_inj.mp hr).symm⟩)

/-- A segment is a contract line and lines that are none. -/
theorem exists_cons_of_mem_segments {segment : List Placed} (h : segment ∈ segments ps) :
    ∃ p rest, segment = p :: rest ∧ p.opens = true ∧ ∀ q ∈ rest, q.opens = false := by
  induction ps with
  | nil => exact absurd h List.not_mem_nil
  | cons p ps ih =>
    rw [segments] at h
    split at h
    · next hp =>
      rcases List.mem_cons.mp h with rfl | h
      · refine ⟨p, _, rfl, hp, fun q hq => ?_⟩
        simpa using List.mem_takeWhile_imp hq
      · exact ih h
    · exact ih h

/-- **A law about the recipes of segments** is shown for contract lines, and for each further line
from the recipe before it. -/
theorem recipeOf_induction {P : List Placed → Recipe → Prop} {segment : List Placed} {r : Recipe}
    (hopens : ∀ p r, p.opens = true → p.read options none = some r → P [p] r)
    (hstep : ∀ segment p r r', p.opens = false → P segment r →
      p.read options (some r) = some r' → P (segment ++ [p]) r')
    (h : segment ∈ segments ps) (hr : recipeOf options segment = some r) : P segment r := by
  obtain ⟨p, rest, rfl, hp, hrest⟩ := exists_cons_of_mem_segments h
  clear h
  induction rest using List.reverseRecOn generalizing r with
  | nil => exact hopens p r hp hr
  | append_singleton rest q ih =>
    obtain ⟨hrest, hq⟩ := List.forall_mem_append.mp hrest
    have hq : q.opens = false := hq q (List.mem_singleton_self q)
    rw [← List.cons_append, recipeOf_concat] at hr
    obtain ⟨r₀, hr₀⟩ : ∃ r₀, recipeOf options (p :: rest) = some r₀ := by
      rw [← Option.isSome_iff_exists, ← Placed.isSome_read options hq, hr]
      rfl
    exact hstep (p :: rest) q r₀ r hq (ih hr₀ hrest) (hr₀ ▸ hr)

/-! ### The run -/

/-- The recipe under construction after an accepted line, by the line in its place. -/
theorem current_eq_read {s t : Session} {line : Text} (h : s.feed options line = .ok t) :
    t.current = Placed.read options s.current ⟨line, s.state.next line⟩ :=
  current_of_feed h

/-- **The recipes of a run are those of its segments**, in order. -/
theorem map_recipeOf_of_feedAll {s : Session} (h : start.feedAll options lines = .ok s) :
    (segments (place lines)).map (recipeOf options) = s.recipes.map some := by
  refine feedAll_induction
    (P := fun lines s => (segments (place lines)).map (recipeOf options) = s.recipes.map some)
    rfl ?_ h
  intro lines line s t hs ih hfeed
  have hcurrent := current_eq_read hfeed
  have hfinished := finished_of_feed hfeed
  rw [place_concat, ← state_of_feedAll hs]
  by_cases hp : Placed.opens ⟨line, s.state.next line⟩ = true
  · -- The recipe so far is finished, and the segment of the line is the line alone.
    have hstate : s.state.next line = ⟨.recipe, .contract⟩ := of_decide_eq_true hp
    obtain ⟨r, hr⟩ : ∃ r, t.current = some r := by
      refine exists_current_of_feedAll (feedAll_concat_eq_ok.mpr ⟨s, hs, hfeed⟩) (Or.inl ?_)
      rw [(notes_of_feed hfeed).state, hstate]
    have hsingle : recipeOf options [⟨line, s.state.next line⟩] = some r := by
      rw [← hr, hcurrent, Placed.read_of_opens hp]
      rfl
    rw [segments_concat_of_opens hp, List.map_append, ih, List.map_singleton, hsingle, recipes,
      recipes, hfinished, if_pos hstate, hr, Option.toList_some, List.map_append, List.map_append,
      List.map_append, List.map_singleton]
  · rw [Bool.not_eq_true] at hp
    have hstate : s.state.next line ≠ ⟨.recipe, .contract⟩ := of_decide_eq_false hp
    rw [if_neg hstate, List.append_nil] at hfinished
    have hsome := Placed.isSome_read options hp s.current
    rw [← hcurrent] at hsome
    cases hr : s.current with
    | none =>
      -- No contract line has come, and this one is none.
      have hnone : t.current = none := by simpa [hr] using hsome
      have hnil := segments_eq_nil_iff.mpr ((current_eq_none_iff hs).mp hr)
      rcases segments_concat (place lines) hp with ⟨-, hnil'⟩ | ⟨front, last, hall, -⟩
      · rw [hnil, recipes, hr] at ih
        rw [hnil', recipes, hnone, hfinished]
        exact ih
      · rw [hnil] at hall
        exact absurd hall (by simp)
    | some r =>
      obtain ⟨r', hr'⟩ : ∃ r', t.current = some r' := by
        rw [hr, Option.isSome_some] at hsome
        exact Option.isSome_iff_exists.mp hsome
      rcases segments_concat (place lines) hp with ⟨hnil, -⟩ | ⟨front, last, hall, hall'⟩
      · rw [hnil, recipes, hr] at ih
        exact absurd ih (by simp)
      · rw [hall, recipes, hr, Option.toList_some, List.map_append, List.map_append] at ih
        obtain ⟨hfront, hlast⟩ := List.append_inj' ih rfl
        have hlast : recipeOf options last = some r := List.singleton_inj.mp hlast
        rw [hall', recipes, hr', hfinished, Option.toList_some, List.map_append, List.map_append,
          hfront, List.map_singleton, List.map_singleton, recipeOf_concat, hlast, ← hr, ← hcurrent,
          hr']

/-- **Each recipe of an outline is that of its segment.** -/
theorem map_recipeOf_segments {out : Output} (h : readLines options lines = .ok out) :
    (segments (place lines)).map (recipeOf options) = out.recipes.map some := by
  obtain ⟨s, hs, hfinish⟩ := readLines_eq_ok.mp h
  rw [map_recipeOf_of_feedAll hs, (eq_of_finish hfinish).2.1]

/-- What a segment makes of its recipe holds of the recipes of an outline one by one. -/
theorem forall₂_recipes {out : Output} {R : List Placed → Recipe → Prop}
    (h : readLines options lines = .ok out)
    (hsegment : ∀ segment ∈ segments (place lines), ∀ r, recipeOf options segment = some r →
      R segment r) : List.Forall₂ R (segments (place lines)) out.recipes := by
  have hmap := map_recipeOf_segments h
  generalize segments (place lines) = all at hmap hsegment
  generalize out.recipes = rs at hmap
  induction all generalizing rs with
  | nil =>
    rw [List.map_eq_nil_iff.mp hmap.symm]
    exact .nil
  | cons segment all ih =>
    cases rs with
    | nil => exact absurd hmap (by simp)
    | cons r rs =>
      obtain ⟨hr, hrest⟩ := List.cons_eq_cons.mp hmap
      obtain ⟨hhere, hothers⟩ := List.forall_mem_cons.mp hsegment
      exact .cons (hhere r hr) (ih hothers rs hrest)

/-- **What every line keeps holds of every recipe** of an outline. A line may use what holds of
all of the lines. -/
theorem forall_recipes {out : Output} {P : Recipe → Prop} (h : readLines options lines = .ok out)
    (hstep : ∀ line ∈ lines, ∀ state current, (∀ r ∈ current, P r) →
      ∀ r ∈ currentAfter options state (Text.dropLineEnd line) current, P r) :
    ∀ r ∈ out.recipes, P r := by
  obtain ⟨s, hs, hfinish⟩ := readLines_eq_ok.mp h
  rw [(eq_of_finish hfinish).2.1]
  refine feedAll_induction (P := fun lines s => (∀ line ∈ lines, ∀ state current,
    (∀ r ∈ current, P r) → ∀ r ∈ currentAfter options state (Text.dropLineEnd line) current, P r) →
      ∀ r ∈ s.recipes, P r) (fun _ => List.forall_mem_nil _) ?_ hs hstep
  intro lines line s t _ ih hfeed hlines
  obtain ⟨hbefore, hline⟩ := List.forall_mem_append.mp hlines
  obtain ⟨hfinished, hcurrent⟩ := List.forall_mem_append.mp (ih hbefore)
  have hkept : ∀ r ∈ s.current, P r := fun r hr => hcurrent r (Option.mem_toList.mpr hr)
  rw [recipes, finished_of_feed hfeed, current_of_feed hfeed]
  refine List.forall_mem_append.mpr ⟨List.forall_mem_append.mpr ⟨hfinished, ?_⟩, fun r hr => ?_⟩
  · split
    · exact hcurrent
    · exact List.forall_mem_nil _
  · exact hline line (List.mem_singleton_self line) _ _ hkept r (Option.mem_toList.mp hr)

end DesignRecipe.Outline

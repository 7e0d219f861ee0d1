import DesignRecipe.Proofs.Outline.Abort

/-!
# Outlines compose

Two outlines one after the other give the recipes of the first and then those of the second,
and the same reports, if the first one ends outside of blocks.

The reading that goes on after the first outline is compared with the reading of the second
one alone, line by line. Up to the first contract of the second outline (`Session.Awaits`) they
need not be in the same state, for the first outline may end in a body outline; and there is a
recipe under construction in one of them only. But no line before that contract belongs to a
recipe, or else the second outline would be refused. From that contract on (`Session.Joins`)
the two readings differ in what is finished and reported, and in nothing that counts for the
lines to come.

What the last recipe of the first outline lacks is reported at that contract, behind what is
found wrong with the contract line. So the reports come in another order, and they are
compared by their wording and without regard to order.
-/

namespace DesignRecipe.Outline

namespace State

/-! ### States that the same lines bring together -/

variable {s t : State} {line : Text}

/-- A body outline ends at a delimiter and at no other line. -/
theorem next_of_body (h : s.region = .body) (hdelimits : delimits line = false) :
    s.next line = s := by
  have hline : isDelimiter (Text.trim line) = false := hdelimits
  simp [next, step, h, hline]

/-- Between blocks only a delimiter and a comment have a meaning. -/
theorem next_of_outside (h : s.region = .outside) (hdelimits : delimits line = false)
    (hhash : (Text.trim line).head? ≠ some '#') : s.next line = s := by
  have hline : isDelimiter (Text.trim line) = false := hdelimits
  simp [next, step, h, hline, hhash]

/-- A comment between blocks starts a body outline and belongs to it. -/
theorem owned_of_outside (h : s.region = .outside) (hdelimits : delimits line = false)
    (hhash : (Text.trim line).head? = some '#') : Session.Owned (s.next line) line := by
  have hline : isDelimiter (Text.trim line) = false := hdelimits
  exact Or.inr ⟨by simp [next, step, h, hline, hhash], hhash⟩

/-- **The state where another outline has come before**, against the state without it: they are
the same, or one is between blocks and the other in a body outline. -/
def Trails (s t : State) : Prop := t = s ∨ (s.region = .outside ∧ t.region = .body)

/-- **A line that belongs to no recipe keeps the states like this**, and belongs to no recipe
where the other outline has come before. -/
theorem Trails.next (h : Trails s t) (howned : ¬Session.Owned (s.next line) line) :
    t.next line = s.next line ∨
      ((s.next line).region = .outside ∧ (t.next line).region = .body ∧
        ¬Session.Owned (t.next line) line) := by
  rcases h with rfl | ⟨houtside, hbody⟩
  · exact Or.inl rfl
  by_cases hdelimits : delimits line = true
  · -- Either region ends at a delimiter, and a block starts.
    left
    rw [next_of_delimits hdelimits, next_of_delimits hdelimits]
    simp [inBlock, houtside, hbody]
  · rw [Bool.not_eq_true] at hdelimits
    have hhash : (Text.trim line).head? ≠ some '#' := fun hhash =>
      howned (owned_of_outside houtside hdelimits hhash)
    right
    rw [next_of_outside houtside hdelimits hhash, next_of_body hbody hdelimits]
    refine ⟨houtside, hbody, ?_⟩
    simp [Session.Owned, hbody, hhash]

/-- An outline that ends outside of blocks lets the next one start. -/
theorem trails_initial {lines : List Text}
    (h : (after lines).region = .outside ∨ (after lines).region = .body) :
    Trails initial (after lines) := by
  rcases h with houtside | hbody
  · left
    have hheading : (after lines).heading = .none := by
      by_contra hne
      rw [sectioned_after lines hne] at houtside
      exact absurd houtside (by decide)
    generalize after lines = t at *
    obtain ⟨region, heading⟩ := t
    obtain rfl : region = .outside := houtside
    obtain rfl : heading = .none := hheading
    rfl
  · exact Or.inr ⟨rfl, hbody⟩

end State

namespace Session

variable {options : Options} {a s t s' t' : Session} {lines : List Text} {line : Text}

/-! ### What a reading comes to -/

/-- What is said about a recipe that is finished. -/
def lacks (r : Recipe) : List Text :=
  if r.isComplete then [] else [(Problem.incomplete r.name r.gaps).message]

theorem map_message_completeness (r : Recipe) (number : Nat) (source : Text) :
    (completeness r number source).map Diagnostic.message = lacks r := by
  rw [completeness, lacks]
  split <;> rfl

/-- The recipes that a reading gives if it ends here. -/
def recipes (s : Session) : List Recipe := s.finished ++ s.current.toList

/-- **The wordings of what a reading reports** if it ends here. -/
def messages (s : Session) : List Text :=
  s.diagnostics.map Diagnostic.message ++ s.current.toList.flatMap lacks

/-- **A reading with a recipe under construction can end.** -/
theorem exists_finish {r : Recipe} (h : s.current = some r) :
    ∃ out, s.finish = .ok out ∧ out.recipes = s.recipes ∧
      out.diagnostics.map Diagnostic.message = s.messages := by
  have hfinish : s.finish =
      .ok ⟨(s.close s.lineCount s.line).finished, (s.close s.lineCount s.line).diagnostics⟩ := by
    rw [finish, h]
    rfl
  refine ⟨_, hfinish, finished_close s _ _, ?_⟩
  rw [diagnostics_close, List.map_append, List.map_flatMap, messages]
  simp only [map_message_completeness]

/-- What an outline gives is what its reading comes to. -/
theorem eq_of_finish {out : Output} (h : s.finish = .ok out) :
    (∃ r, s.current = some r) ∧ out.recipes = s.recipes ∧
      out.diagnostics.map Diagnostic.message = s.messages := by
  obtain ⟨r, hcurrent, -⟩ := exists_current_of_finish h
  obtain ⟨out', hfinish, hrecipes, hmessages⟩ := exists_finish hcurrent
  obtain rfl := Except.ok.inj (h.symm.trans hfinish)
  exact ⟨⟨r, hcurrent⟩, hrecipes, hmessages⟩

/-! ### The wording of what a line raises -/

theorem map_message_ofFinding (number : Nat) (source : Text) (findings : List Finding) :
    (findings.map (Diagnostic.ofFinding .ignorable number source)).map Diagnostic.message =
      findings.map fun f => f.problem.message := by
  rw [List.map_map]
  rfl

/-- **The wording does not tell where the line stands**: it depends on the state and the recipe
under construction alone. -/
theorem map_message_raised_congr (hstate : t.state = s.state) (hcurrent : t.current = s.current) :
    (raised options t line).map Diagnostic.message =
      (raised options s line).map Diagnostic.message := by
  rw [raised, raised, hstate, hcurrent]
  split
  · rw [List.map_append, List.map_append, map_message_ofFinding, map_message_ofFinding]
    split <;> simp [List.map_flatMap, map_message_completeness]
  · split
    · simp only [List.map_flatMap, map_message_ofFinding]
    · rfl

/-- A contract line is reported for what it has, and then for what the recipe lacks that it
finishes. -/
theorem map_message_raised_of_opens {c : Contract}
    (hstate : s.state.next line = ⟨.recipe, .contract⟩)
    (hread : Contract.read (Payload.ofLine (Text.dropLineEnd line)) = .ok c) :
    (raised options s line).map Diagnostic.message =
      (Payload.ofLine (Text.dropLineEnd line)).findings.map (fun f => f.problem.message) ++
        s.current.toList.flatMap lacks := by
  rw [raised, if_pos hstate, hread, List.map_append, map_message_ofFinding, List.map_flatMap]
  simp only [map_message_completeness]

/-! ### Reading on behind another outline -/

/-- **No contract has come yet** in the later lines: `s` is the reading of these lines alone, and
`t` is the reading that goes on with them behind `a`. -/
structure Awaits (a s t : Session) : Prop where
  trails : State.Trails s.state t.state
  current_eq_none : s.current = none
  finished_eq_nil : s.finished = []
  diagnostics_eq_nil : s.diagnostics = []
  current : t.current = a.current
  finished : t.finished = a.finished
  diagnostics : t.diagnostics = a.diagnostics

/-- **A contract has come** in the later lines, and has finished the last recipe of `a`. -/
structure Joins (a s t : Session) : Prop where
  state : t.state = s.state
  current : t.current = s.current
  finished : t.finished = a.recipes ++ s.finished
  messages : (t.diagnostics.map Diagnostic.message).Perm
    (a.messages ++ s.diagnostics.map Diagnostic.message)

/-- **The first contract of the later lines** finishes the last recipe of `a`, and both readings
go on with the same recipe. -/
theorem Awaits.joins (h : Awaits a s t) (hstate : t.state.next line = s.state.next line)
    (hopens : s.state.next line = ⟨.recipe, .contract⟩) (hfeed : s.feed options line = .ok s') :
    ∃ t', t.feed options line = .ok t' ∧ Joins a s' t' := by
  have hopens' := hstate.trans hopens
  obtain ⟨harrow, -⟩ := not_stopped_of_feed hfeed
  obtain ⟨t', hfeed'⟩ : ∃ t', t.feed options line = .ok t' :=
    exists_feed_of_not_stopped (fun _ => harrow hopens) fun _ howned => howned.ne_contract hopens'
  obtain ⟨c, hread⟩ : ∃ c, Contract.read (Payload.ofLine (Text.dropLineEnd line)) = .ok c := by
    cases hread : Contract.read (Payload.ofLine (Text.dropLineEnd line)) with
    | error f => exact absurd (Contract.exists_read_eq_error_iff.mp ⟨f, hread⟩) (harrow hopens)
    | ok c => exact ⟨c, rfl⟩
  refine ⟨t', hfeed', ?_, ?_, ?_, ?_⟩
  · rw [(notes_of_feed hfeed').state, (notes_of_feed hfeed).state, hstate]
  · rw [current_of_feed hfeed', current_of_feed hfeed, hopens', hopens]
    rfl
  · rw [finished_of_feed hfeed', finished_of_feed hfeed, if_pos hopens, if_pos hopens', h.finished,
      h.current, h.current_eq_none, h.finished_eq_nil]
    simp [recipes]
  · rw [diagnostics_of_feed hfeed', diagnostics_of_feed hfeed, List.map_append, List.map_append,
      map_message_raised_of_opens hopens hread, map_message_raised_of_opens hopens' hread,
      h.diagnostics, h.current, h.current_eq_none, h.diagnostics_eq_nil, messages]
    -- What the recipe of `a` lacks and what is wrong with the line come in the other order.
    simpa using List.perm_append_comm.append_left (a.diagnostics.map Diagnostic.message)

/-- Without a recipe under construction only a contract line starts a recipe. -/
theorem region_ne_recipe_of_feed (hs : start.feedAll options lines = .ok s)
    (hfeed : s.feed options line = .ok s') (hnone : s.current = none)
    (hopens : s.state.next line ≠ ⟨.recipe, .contract⟩) :
    (s.state.next line).region ≠ .recipe := by
  intro hregion
  have hs' := feedAll_concat_eq_ok.mpr ⟨s, hs, hfeed⟩
  obtain ⟨r, hr⟩ := exists_current_of_feedAll hs'
    (Or.inl (by rw [(notes_of_feed hfeed).state]; exact hregion))
  rw [current_of_feed hfeed, currentAfter, if_neg hopens, hregion, hnone] at hr
  exact absurd hr (by simp)

/-- A line that belongs to no recipe changes and reports nothing. -/
theorem idle_of_feed (hfeed : s.feed options line = .ok s')
    (hregion : (s.state.next line).region ≠ .recipe) (hnone : ¬Owned (s.state.next line) line) :
    s'.current = s.current ∧ s'.finished = s.finished ∧ s'.diagnostics = s.diagnostics := by
  refine ⟨?_, ?_, ?_⟩
  · rw [current_of_feed hfeed, currentAfter_of_not_owned _ hregion (by simpa using hnone)]
  · rw [finished_of_feed hfeed, if_neg (State.ne_contract_of_region hregion), List.append_nil]
  · rw [diagnostics_of_feed hfeed, raised_of_region_ne hregion, List.append_nil]

/-- **Up to the first contract** the later lines belong to no recipe. -/
theorem Awaits.feed (h : Awaits a s t) (hs : start.feedAll options lines = .ok s)
    (hfeed : s.feed options line = .ok s') :
    ∃ t', t.feed options line = .ok t' ∧ (Awaits a s' t' ∨ Joins a s' t') := by
  have hnone := (not_stopped_of_feed hfeed).2 h.current_eq_none
  have htrails := h.trails.next hnone
  by_cases hopens : s.state.next line = ⟨.recipe, .contract⟩
  · have hstate : t.state.next line = s.state.next line := by
      refine htrails.resolve_right fun hright => ?_
      rw [hopens] at hright
      exact absurd hright.1 (by decide)
    obtain ⟨t', hfeed', hjoins⟩ := h.joins hstate hopens hfeed
    exact ⟨t', hfeed', Or.inr hjoins⟩
  -- The line belongs to no recipe of either reading.
  have hregion := region_ne_recipe_of_feed hs hfeed h.current_eq_none hopens
  obtain ⟨hregion', hnone'⟩ :
      (t.state.next line).region ≠ .recipe ∧ ¬Owned (t.state.next line) line := by
    rcases htrails with heq | ⟨-, hbody, hnone'⟩
    · rw [heq]
      exact ⟨hregion, hnone⟩
    · exact ⟨by rw [hbody]; decide, hnone'⟩
  obtain ⟨t', hfeed'⟩ : ∃ t', t.feed options line = .ok t' :=
    exists_feed_of_not_stopped
      (fun hcontract => absurd hcontract (State.ne_contract_of_region hregion')) fun _ => hnone'
  have htrails' : State.Trails s'.state t'.state := by
    rw [(notes_of_feed hfeed').state, (notes_of_feed hfeed).state]
    exact htrails.imp_right fun ⟨houtside, hbody, _⟩ => ⟨houtside, hbody⟩
  obtain ⟨hcurrent, hfinished, hdiagnostics⟩ := idle_of_feed hfeed hregion hnone
  obtain ⟨hcurrent', hfinished', hdiagnostics'⟩ := idle_of_feed hfeed' hregion' hnone'
  exact ⟨t', hfeed', Or.inl ⟨htrails', hcurrent.trans h.current_eq_none,
    hfinished.trans h.finished_eq_nil, hdiagnostics.trans h.diagnostics_eq_nil,
    hcurrent'.trans h.current, hfinished'.trans h.finished, hdiagnostics'.trans h.diagnostics⟩⟩

/-- **From the first contract on** the two readings do the same. -/
theorem Joins.feed (h : Joins a s t) (hfeed : s.feed options line = .ok s') :
    ∃ t', t.feed options line = .ok t' ∧ Joins a s' t' := by
  have hstate : t.state.next line = s.state.next line := by rw [h.state]
  obtain ⟨harrow, howned⟩ := not_stopped_of_feed hfeed
  obtain ⟨t', hfeed'⟩ : ∃ t', t.feed options line = .ok t' := by
    refine exists_feed_of_not_stopped ?_ ?_
    · rw [hstate]
      exact harrow
    · rw [hstate, h.current]
      exact howned
  refine ⟨t', hfeed', ?_, ?_, ?_, ?_⟩
  · rw [(notes_of_feed hfeed').state, (notes_of_feed hfeed).state, hstate]
  · rw [current_of_feed hfeed', current_of_feed hfeed, hstate, h.current]
  · rw [finished_of_feed hfeed', finished_of_feed hfeed, hstate, h.current, h.finished,
      List.append_assoc]
  · rw [diagnostics_of_feed hfeed', diagnostics_of_feed hfeed, List.map_append, List.map_append,
      map_message_raised_congr h.state h.current, ← List.append_assoc]
    exact h.messages.append_right _

/-- **A reading goes on behind another one** as it goes alone. -/
theorem exists_feedAll_behind (ha : State.Trails .initial a.state)
    (h : start.feedAll options lines = .ok s) :
    ∃ t, a.feedAll options lines = .ok t ∧ (Awaits a s t ∨ Joins a s t) := by
  refine feedAll_induction
    (P := fun lines s => ∃ t, a.feedAll options lines = .ok t ∧ (Awaits a s t ∨ Joins a s t))
    ⟨a, rfl, Or.inl ⟨ha, rfl, rfl, rfl, rfl, rfl, rfl⟩⟩ ?_ h
  rintro lines line s s' hs ⟨t, ht, hawaits | hjoins⟩ hfeed
  · obtain ⟨t', hfeed', hnext⟩ := hawaits.feed hs hfeed
    exact ⟨t', feedAll_concat_eq_ok.mpr ⟨t, ht, hfeed'⟩, hnext⟩
  · obtain ⟨t', hfeed', hnext⟩ := hjoins.feed hfeed
    exact ⟨t', feedAll_concat_eq_ok.mpr ⟨t, ht, hfeed'⟩, Or.inr hnext⟩

end Session

/-- **Outlines compose.** If two outlines are read to their ends, and the first one ends outside
of blocks, then one after the other they are read to the end. They give the recipes of the
first one and then those of the second, and the same wordings are reported. -/
theorem readLines_append {options : Options} {first second : List Text} {a b : Output}
    (ha : readLines options first = .ok a)
    (hend : (State.after first).region = .outside ∨ (State.after first).region = .body)
    (hb : readLines options second = .ok b) :
    ∃ out, readLines options (first ++ second) = .ok out ∧
      out.recipes = a.recipes ++ b.recipes ∧
      (out.diagnostics.map Diagnostic.message).Perm
        ((a.diagnostics ++ b.diagnostics).map Diagnostic.message) := by
  obtain ⟨u, hu, hfinish⟩ := readLines_eq_ok.mp ha
  obtain ⟨s, hs, hfinish'⟩ := readLines_eq_ok.mp hb
  obtain ⟨-, hrecipes, hmessages⟩ := Session.eq_of_finish hfinish
  obtain ⟨⟨r, hcurrent⟩, hrecipes', hmessages'⟩ := Session.eq_of_finish hfinish'
  have htrails : State.Trails .initial u.state := by
    rw [Session.state_of_feedAll hu]
    exact State.trails_initial hend
  obtain ⟨t, ht, hawaits | hjoins⟩ := Session.exists_feedAll_behind htrails hs
  · -- Without a contract the second outline would have been refused at its end.
    rw [hawaits.current_eq_none] at hcurrent
    exact absurd hcurrent (by simp)
  obtain ⟨out, hout, houtRecipes, houtMessages⟩ :=
    Session.exists_finish (hjoins.current.trans hcurrent)
  refine ⟨out, readLines_eq_ok.mpr
    ⟨t, Session.feedAll_append_eq_ok.mpr ⟨u, hu, ht⟩, hout⟩, ?_, ?_⟩
  · rw [houtRecipes, Session.recipes, hjoins.finished, hjoins.current, hrecipes, hrecipes',
      List.append_assoc]
    rfl
  · rw [houtMessages, Session.messages, hjoins.current, List.map_append, hmessages, hmessages',
      Session.messages, Session.messages, ← List.append_assoc]
    exact hjoins.messages.append_right _

theorem readLines_append_sample : ∃ a out, readLines .standard Session.sample = .ok a ∧
    (State.after Session.sample).region = .body ∧
    readLines .standard (Session.sample ++ Session.sample) = .ok out ∧
    out.recipes = a.recipes ++ a.recipes ∧ out.recipes.length = 4 ∧
    (out.diagnostics.map Diagnostic.message).Perm
      ((a.diagnostics ++ a.diagnostics).map Diagnostic.message) := by
  obtain ⟨a, ha, hlength⟩ :
      ∃ a, readLines .standard Session.sample = .ok a ∧ a.recipes.length = 2 := ⟨_, rfl, rfl⟩
  have hbody : (State.after Session.sample).region = .body := by decide
  obtain ⟨out, hout, hrecipes, hmessages⟩ := readLines_append ha (Or.inr hbody) ha
  exact ⟨a, out, ha, hbody, hout, hrecipes, by simp [hrecipes, hlength], hmessages⟩

end DesignRecipe.Outline

import DesignRecipe.Proofs.Outline.Header
import DesignRecipe.Proofs.Outline.WellFormed
import DesignRecipe.Proofs.Parameters

/-!
# The names in a purpose

A purpose names the arguments in backticks, and then the result. The text between two names stands
between backticks as well, but it is never taken for a name, since the search goes on behind the
backtick that ends a name. So the names that are found are the ones that were written, in their
order (`Purpose.spans_sentence`), and the blanks around the sentence do not matter
(`Purpose.spans_trim`).

The names are handed out to the arguments in order. An argument that is left over keeps the name it
had or has one made up, by its own type and position (`Purpose.getElem?_argNames_apply_eq_some`);
the first name that is left over is that of the result, and the others are dropped. Before the first
purpose nothing has a name, so that it names everything (`feed_purposeLine`).
-/

namespace DesignRecipe.Outline

open Session

namespace Purpose

/-! ### Names in backticks -/

/-- **A sentence with names in backticks**: what stands before the first name, and each name with
what stands behind it. -/
def sentence (front : Text) (named : List (Text × Text)) : Text :=
  front ++ named.flatMap fun p => '`' :: p.1 ++ '`' :: p.2

/-- No name goes on behind a backtick. -/
theorem ne_backtick_of_inName {c : Char} (h : inName c = true) : c ≠ '`' := by
  have hbacktick : inName '`' = false := by decide +kernel
  rintro rfl
  rw [hbacktick] at h
  exact absurd h (by decide)

/-- **Without a backtick no name begins.** -/
theorem spansFrom_append_of_notMem {front : Text} (h : '`' ∉ front) (rest : Text) :
    spansFrom (front ++ rest) none = spansFrom rest none := by
  induction front with
  | nil => rfl
  | cons c front ih =>
    obtain ⟨hc, hfront⟩ := not_or.mp (mt List.mem_cons.mpr h)
    rw [List.cons_append, spansFrom, if_neg (Ne.symm hc), ih hfront]

/-- Nor does one end. -/
theorem spansFrom_eq_nil {rest : Text} (h : '`' ∉ rest) (opened : Option Text) :
    spansFrom rest opened = [] := by
  induction rest generalizing opened with
  | nil => rfl
  | cons c rest ih =>
    obtain ⟨hc, hrest⟩ := not_or.mp (mt List.mem_cons.mpr h)
    cases opened with
    | none => rw [spansFrom, if_neg (Ne.symm hc), ih hrest]
    | some name =>
      rw [spansFrom, if_neg (Ne.symm hc)]
      split <;> exact ih hrest _

/-- So what stands behind the last backtick does not matter. -/
theorem spansFrom_append_right {rest : Text} (h : '`' ∉ rest) (s : Text)
    (opened : Option Text) : spansFrom (s ++ rest) opened = spansFrom s opened := by
  induction s generalizing opened with
  | nil => exact spansFrom_eq_nil h opened
  | cons c s ih => cases opened <;> simp only [List.cons_append, spansFrom, ih]

/-- The characters of a name are collected. -/
theorem spansFrom_name {name : Text} (h : ∀ c ∈ name, inName c = true) (rest collected : Text) :
    spansFrom (name ++ rest) (some collected) =
      spansFrom rest (some (name.reverse ++ collected)) := by
  induction name generalizing collected with
  | nil => rfl
  | cons c name ih =>
    obtain ⟨hc, hname⟩ := List.forall_mem_cons.mp h
    rw [List.cons_append, spansFrom, if_neg (ne_backtick_of_inName hc), if_pos hc, ih hname,
      List.reverse_cons, List.append_assoc]
    rfl

/-- **A name between backticks is found**, and the search goes on behind it. -/
theorem spansFrom_cons_name {name : Text} (hne : name ≠ []) (h : ∀ c ∈ name, inName c = true)
    (rest : Text) :
    spansFrom ('`' :: name ++ '`' :: rest) none = name :: spansFrom rest none := by
  rw [List.cons_append, spansFrom, if_pos rfl, spansFrom_name h, spansFrom, if_pos rfl,
    List.append_nil, if_neg (by simpa using hne), List.reverse_reverse]

/-- **The names of a sentence are the ones that stand in it**, in order. -/
theorem spans_sentence {front : Text} {named : List (Text × Text)} (hfront : '`' ∉ front)
    (hnamed : ∀ p ∈ named, p.1 ≠ [] ∧ (∀ c ∈ p.1, inName c = true) ∧ '`' ∉ p.2) :
    spans (sentence front named) = named.map Prod.fst := by
  rw [spans, sentence, spansFrom_append_of_notMem hfront]
  induction named with
  | nil => rfl
  | cons p named ih =>
    obtain ⟨⟨hne, hname, hafter⟩, hrest⟩ := List.forall_mem_cons.mp hnamed
    rw [List.flatMap_cons, List.append_assoc, List.cons_append, List.cons_append,
      ← List.cons_append, spansFrom_cons_name hne hname, spansFrom_append_of_notMem hafter,
      ih hrest, List.map_cons]

/-- **The blanks around a purpose do not matter** for its names. -/
theorem spans_trim (s : Text) : spans (Text.trim s) = spans s := by
  have hblank {t : Text} (h : Text.Blank t) : '`' ∉ t := fun hmem =>
    absurd (h _ hmem) (by decide)
  obtain ⟨before, after, hbefore, hafter, hs⟩ := Text.exists_trim s
  conv_rhs => rw [spans, hs, spansFrom_append_right (hblank hafter),
    spansFrom_append_of_notMem (hblank hbefore)]
  rfl

/-! ### Handing out the names -/

/-- An argument has the name at its place, or else the one it had. -/
theorem getElem?_fst_assign (slots : List (Option Text)) (names : List Text) (i : Nat) :
    (assign slots names).1[i]? = slots[i]?.map names[i]?.or := by
  induction slots generalizing names i with
  | nil => rfl
  | cons slot slots ih =>
    cases names with
    | nil => cases h : (slot :: slots)[i]? <;> simp [assign, h]
    | cons name names =>
      cases i with
      | zero => rfl
      | succ i => exact ih names i

/-- The names that are left over are those behind the arguments. -/
theorem snd_assign (slots : List (Option Text)) (names : List Text) :
    (assign slots names).2 = names.drop slots.length := by
  induction slots generalizing names with
  | nil => rfl
  | cons slot slots ih =>
    cases names with
    | nil => rfl
    | cons name names => exact ih names

/-- **The names after a purpose are the parameters** of what was handed out. -/
theorem complete_eq_map_namesFrom {slots : List (Option Text)} {tags : List Text}
    (h : slots.length ≤ tags.length) (position : Nat) :
    complete position slots tags = (Recipe.namesFrom position slots tags).map some := by
  induction slots generalizing position tags with
  | nil => rfl
  | cons slot slots ih =>
    cases tags with
    | nil => exact absurd h (by simp)
    | cons tag tags =>
      rw [complete, Recipe.namesFrom, ih (Nat.le_of_succ_le_succ h), List.map_cons]

variable {r : Recipe} {i : Nat}

/-- **What an argument is called after a purpose**: by the name at its place, or as before, or by a
name made up from its type and position. -/
theorem getElem?_argNames_apply_eq_some (h : r.argNames.length = r.arity) (purpose : Text)
    {name : Option Text} : (apply r purpose).argNames[i]? = some name ↔
      ∃ slot tag, r.argNames[i]? = some slot ∧ r.argTypes[i]? = some tag ∧
        some ((((spans purpose).map Text.identifier)[i]?.or slot).getD
          (Recipe.generatedName tag i)) = name := by
  have hlength : (assign r.argNames ((spans purpose).map Text.identifier)).1.length ≤
      r.argTypes.length := by
    rw [length_assign, h]
    exact Nat.le_refl _
  simp only [apply]
  rw [complete_eq_map_namesFrom hlength, Recipe.namesFrom_eq_mapIdx, List.getElem?_map,
    List.getElem?_mapIdx]
  simp only [Option.map_eq_some_iff, Prod.exists, List.getElem?_zip_eq_some, getElem?_fst_assign,
    Nat.zero_add]
  constructor
  · rintro ⟨_, ⟨_, tag, ⟨⟨slot, hslot, rfl⟩, htag⟩, rfl⟩, rfl⟩
    exact ⟨slot, tag, hslot, htag, rfl⟩
  · rintro ⟨slot, tag, hslot, htag, rfl⟩
    exact ⟨_, ⟨_, tag, ⟨⟨slot, hslot, rfl⟩, htag⟩, rfl⟩, rfl⟩

/-- **A first purpose names everything**, the arguments and the result. -/
theorem apply_of_unnamed (h : r.argNames.length = r.arity)
    (hargs : ∀ name ∈ r.argNames, name = none) (hresult : r.returnName = none) (purpose : Text) :
    let names := (spans purpose).map Text.identifier
    apply r purpose = { r with
      purpose := some purpose
      argNames := r.argTypes.mapIdx fun i tag => some (names[i]?.getD (Recipe.generatedName tag i))
      returnName := names[r.arity]? } := by
  intro names
  have hargNames : (apply r purpose).argNames =
      r.argTypes.mapIdx fun i tag => some (names[i]?.getD (Recipe.generatedName tag i)) := by
    refine List.ext_getElem? fun i => Option.ext fun name => ?_
    rw [getElem?_argNames_apply_eq_some h, List.getElem?_mapIdx, Option.map_eq_some_iff]
    constructor
    · rintro ⟨slot, tag, hslot, htag, rfl⟩
      obtain rfl := hargs slot (List.mem_of_getElem? hslot)
      exact ⟨tag, htag, by rw [Option.or_none]⟩
    · rintro ⟨tag, htag, rfl⟩
      have hi : i < r.argNames.length := h ▸ (List.getElem?_eq_some_iff.mp htag).1
      refine ⟨r.argNames[i], tag, List.getElem?_eq_getElem hi, htag, ?_⟩
      rw [hargs _ (List.getElem_mem hi), Option.or_none]
  have hreturnName : (apply r purpose).returnName = names[r.arity]? := by
    simp only [apply, snd_assign, hresult, List.head?_drop, h, names]
    cases ((spans purpose).map Text.identifier)[r.arity]? <;> rfl
  rw [← hargNames, ← hreturnName]
  rfl

end Purpose

/-! ### Purpose lines -/

/-- **A purpose line names the arguments in order.** Where a purpose header counts and the recipe
under construction has no purpose yet, the line is accepted and nothing is reported. The purpose is
the sentence behind the pipe, with its backticks. Each argument has the name at its place, as an
identifier, or one made up from its type and position if there are not as many. The next name is
that of the result, and those behind it are dropped. -/
theorem feed_purposeLine {options : Options} {lines : List Text} {s : Session} {r : Recipe}
    {header front : Text} {named : List (Text × Text)}
    (hs : start.feedAll options lines = .ok s) (hcurrent : s.current = some r)
    (hpurpose : r.purpose = none) (hhonors : s.state.honors .purpose = true)
    (hheader : IsHeader .purpose header) (hfront : '`' ∉ front)
    (hnamed : ∀ p ∈ named, p.1 ≠ [] ∧ (∀ c ∈ p.1, Purpose.inName c = true) ∧ '`' ∉ p.2) :
    let line := pipedLine header (Purpose.sentence front named)
    let names := named.map fun p => Text.identifier p.1
    ∃ t, s.feed options line = .ok t ∧ t.state = ⟨.recipe, .purpose⟩ ∧
      t.diagnostics = s.diagnostics ∧ t.finished = s.finished ∧
      t.current = some { r with
        purpose := some (Text.trim (Purpose.sentence front named))
        argNames :=
          r.argTypes.mapIdx fun i tag => some (names[i]?.getD (Recipe.generatedName tag i))
        returnName := names[r.arity]?
        lines := r.lines ++ [kept .purpose line] } := by
  intro line names
  have hwellFormed := (forall_wellFormed_of_feedAll hs).1 r hcurrent
  obtain ⟨hargs, hresult⟩ := hwellFormed.unnamed hpurpose
  -- The line without its end is the header, the pipe and the sentence, and leads to the purpose.
  have htext : Text.dropLineEnd line =
      pipedLine header (Text.dropLineEnd (Purpose.sentence front named)) :=
    dropLineEnd_between (by decide) header _
  obtain ⟨column, hpayload⟩ :=
    payload_pipedLine hheader (Text.dropLineEnd (Purpose.sentence front named))
  rw [Text.trim_dropLineEnd, ← htext] at hpayload
  have hstate : (s.advance (Text.dropLineEnd line)).state = ⟨.recipe, .purpose⟩ := by
    rw [state_advance_dropLineEnd]
    exact hheader.next_of_honors hhonors _
  have hnames : (Purpose.spans (Text.trim (Purpose.sentence front named))).map Text.identifier =
      names := by
    rw [Purpose.spans_trim, Purpose.spans_sentence hfront hnamed, List.map_map]
    rfl
  have happly := Purpose.apply_of_unnamed hwellFormed.length_argNames hargs hresult
    (Text.trim (Purpose.sentence front named))
  rw [hnames] at happly
  have hsection : readSection options .purpose (Text.dropLineEnd line) r =
      (record (kept .purpose line) { r with
        purpose := some (Text.trim (Purpose.sentence front named))
        argNames :=
          r.argTypes.mapIdx fun i tag => some (names[i]?.getD (Recipe.generatedName tag i))
        returnName := names[r.arity]? }, []) := by
    simp only [readSection, hpayload, happly]
    rfl
  refine ⟨{ s.advance (Text.dropLineEnd line) with current := some (readSection options .purpose
    (Text.dropLineEnd line) r).1 }, ?_, hstate, rfl, rfl, by rw [hsection]; rfl⟩
  have hcurrent' : (s.advance (Text.dropLineEnd line)).current = some r := hcurrent
  rw [feed]
  simp only [dispatch, hstate, change, hcurrent', hsection, report_nil]

/-- Names for the contract `int float -> str`, one more than there is a use for. -/
def purposeNames : List (Text × Text) :=
  [("Skater's Weight", " at "), ("2nd rate", " as "), ("text", ", not "), ("number", ". ")]

theorem feed_purposeLine_purposeNames : ∃ s t,
    start.feedAll .standard ["\"\"\"", "CONTRACT | mix : int float -> str"] = .ok s ∧
    s.feed .standard
      "PURPOSE | Gives `Skater's Weight` at `2nd rate` as `text`, not `number`. " = .ok t ∧
    t.diagnostics = [] ∧
    t.current.map Recipe.purpose =
      some (some ("Gives `Skater's Weight` at `2nd rate` as `text`, not `number`." : Text)) ∧
    t.current.map Recipe.argNames =
      some [some ("Skaters_Weight" : Text), some ("_2nd_rate" : Text)] ∧
    t.current.map Recipe.returnName = some (some ("text" : Text)) := by
  obtain ⟨s, r, hs, hhonors, hcurrent, hdiagnostics, hpurpose, hargTypes⟩ : ∃ s r,
      start.feedAll .standard ["\"\"\"", "CONTRACT | mix : int float -> str"] = .ok s ∧
      s.state.honors .purpose = true ∧ s.current = some r ∧ s.diagnostics = [] ∧
      r.purpose = none ∧ r.argTypes = [Primitive.int.tag, Primitive.float.tag] :=
    ⟨_, _, rfl, rfl, rfl, rfl, rfl, rfl⟩
  have hchecked : purposeNames.all (fun p =>
      !p.1.isEmpty && p.1.all Purpose.inName && !List.contains p.2 '`') = true := by decide +kernel
  have hnamed : ∀ p ∈ purposeNames,
      p.1 ≠ [] ∧ (∀ c ∈ p.1, Purpose.inName c = true) ∧ '`' ∉ p.2 := by
    simpa [and_assoc] using hchecked
  have hnames : purposeNames.map (fun p => Text.identifier p.1) =
      ["Skaters_Weight".toList, "_2nd_rate".toList, "text".toList, "number".toList] := by
    decide +kernel
  have hheader : IsHeader .purpose "PURPOSE".toList := ⟨by decide, by decide⟩
  have hfront : '`' ∉ "Gives ".toList := by decide
  obtain ⟨t, ht, -, hsame, -, hr⟩ :=
    feed_purposeLine hs hcurrent hpurpose hhonors hheader hfront hnamed
  have hsentence : Text.trim (Purpose.sentence "Gives " purposeNames) =
      "Gives `Skater's Weight` at `2nd rate` as `text`, not `number`.".toList := by decide +kernel
  rw [hsentence, hnames, hargTypes, Recipe.arity, hargTypes] at hr
  exact ⟨s, t, hs, ht, hsame.trans hdiagnostics, by rw [hr]; rfl, by rw [hr]; rfl, by rw [hr]; rfl⟩

end DesignRecipe.Outline

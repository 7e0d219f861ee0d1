import DesignRecipe.Proofs.Literal.Completeness

/-!
# Only literals are read

What a reader accepts is a text of the grammar, and the value that it gives is the one that
the text denotes. Together with the converse, that every literal is read, this says exactly
which texts are read and as what.

The three readers of containers call each other with one less of fuel. So the induction is on
the fuel, and each reader has a step lemma of its own: what it reads is derived, if what the
readers with less fuel read is.
-/

namespace DesignRecipe.Literal

open Text (Blank isBlank trimLeft)

variable {s rest : Text} {v : Value} {fuel : Nat}

/-! ### Scalars -/

/-- **A string is read from a body and its closing quote.** -/
theorem body_of_readString {quote : Char} {text : Text}
    (h : readString quote s = some (text, rest)) :
    ∃ body, s = body ++ quote :: rest ∧ Body quote body text := by
  fun_induction readString quote s generalizing text with
  | case1 => exact absurd h (by simp)
  | case2 =>
    obtain ⟨rfl, rfl⟩ := Prod.mk.inj (Option.some_inj.mp h)
    exact ⟨[], rfl, .nil⟩
  | case3 => exact absurd h (by simp)
  | case4 =>
    obtain ⟨rfl, rfl⟩ := Prod.mk.inj (Option.some_inj.mp h)
    exact ⟨[], rfl, .nil⟩
  | case5 d more _ ih =>
    obtain ⟨⟨text, _⟩, hread, heq⟩ := Option.map_eq_some_iff.mp h
    obtain ⟨rfl, rfl⟩ := Prod.mk.inj heq
    obtain ⟨body, rfl, hbody⟩ := ih hread
    exact ⟨'\\' :: d :: body, rfl, .escaped d hbody⟩
  | case6 c d more hquote hback ih =>
    obtain ⟨⟨text, _⟩, hread, heq⟩ := Option.map_eq_some_iff.mp h
    obtain ⟨rfl, rfl⟩ := Prod.mk.inj heq
    obtain ⟨body, hs, hbody⟩ := ih hread
    exact ⟨c :: body, by rw [hs, List.cons_append], .plain hquote hback hbody⟩

/-- **A number is split off where it ends.** -/
theorem isChain_of_splitNumber (previous : Char) (s : Text) {more rest : Text}
    (h : splitNumber previous s = (more, rest)) :
    s = more ++ rest ∧
      (previous :: more).IsChain fun previous c => continuesNumber previous c := by
  induction s generalizing previous more with
  | nil =>
    obtain ⟨rfl, rfl⟩ := Prod.mk.inj h
    exact ⟨rfl, List.isChain_singleton previous⟩
  | cons c s ih =>
    rw [splitNumber] at h
    split at h
    · next hc =>
      obtain ⟨rfl, rfl⟩ := Prod.mk.inj h
      obtain ⟨hs, hchain⟩ := ih c rfl
      exact ⟨congrArg (c :: ·) hs, List.isChain_cons_cons.mpr ⟨hc, hchain⟩⟩
    · obtain ⟨rfl, rfl⟩ := Prod.mk.inj h
      exact ⟨rfl, List.isChain_singleton previous⟩

/-- **A scalar is read from a literal.** -/
theorem denotes_of_readScalar {c : Char} (h : readScalar c s = some (v, rest)) :
    ∃ t, c :: s = t ++ rest ∧ Denotes t v := by
  rw [readScalar] at h
  split at h
  · next hquote =>
    obtain ⟨⟨text, _⟩, hread, heq⟩ := Option.map_eq_some_iff.mp h
    obtain ⟨rfl, rfl⟩ := Prod.mk.inj heq
    obtain ⟨body, rfl, hbody⟩ := body_of_readString hread
    exact ⟨c :: body ++ [c], by simp, .string hquote hbody⟩
  split at h
  · next hstart =>
    rw [readNumber] at h
    obtain ⟨value, hvalue, heq⟩ := Option.map_eq_some_iff.mp h
    obtain ⟨rfl, rfl⟩ := Prod.mk.inj heq
    obtain ⟨hs, hchain⟩ := isChain_of_splitNumber c s rfl
    exact ⟨c :: (splitNumber c s).1, congrArg (c :: ·) hs,
      .number ⟨⟨c, rfl, hstart⟩, hchain⟩ (numberValue?_eq_some_iff.mp hvalue)⟩
  split at h
  · rw [readWord] at h
    obtain ⟨value, hvalue, heq⟩ := Option.map_eq_some_iff.mp h
    obtain ⟨rfl, rfl⟩ := Prod.mk.inj heq
    exact ⟨_, List.takeWhile_append_dropWhile.symm, .word (wordValue?_eq_some_iff.mp hvalue)⟩
  · exact absurd h (by simp)

/-! ### Containers -/

/-- What is left without the blanks at the start, and those blanks. -/
theorem exists_blank_of_trimLeft {t : Text} (h : trimLeft s = t) :
    ∃ before, Blank before ∧ s = before ++ t := by
  refine ⟨s.takeWhile isBlank, fun c hc => List.mem_takeWhile_imp hc, ?_⟩
  rw [← h]
  exact List.takeWhile_append_dropWhile.symm

/-- **The values read with some fuel are derived**: each from a literal, behind blanks. -/
def ValuesDerived (fuel : Nat) : Prop :=
  ∀ {s rest : Text} {v : Value}, readValue fuel s = some (v, rest) →
    ∃ before t, Blank before ∧ Denotes t v ∧ s = before ++ t ++ rest

/-- **The items read with some fuel are derived**: from literals laid out up to the closing
bracket. -/
def ItemsDerived (fuel : Nat) : Prop :=
  ∀ {close : Char} {s rest : Text} {items : List Value} {trailing : Bool},
    readItems fuel close s = some (items, trailing, rest) →
      ∃ (parts : List (Text × Value)) (t : Text), (∀ p ∈ parts, Denotes p.1 p.2) ∧
        Laid (parts.map Prod.fst) trailing t ∧ items = parts.map Prod.snd ∧ s = t ++ close :: rest

/-- An entry of a dictionary whose parts are literals. -/
structure Entry.Derived (e : Entry) : Prop where
  key : Denotes e.keyText e.key
  before : Blank e.before
  after : Blank e.after
  value : Denotes e.valueText e.value

/-- **The entries read with some fuel are derived**: from entries laid out up to the closing
bracket. -/
def EntriesDerived (fuel : Nat) : Prop :=
  ∀ {s rest : Text} {entries : List (Value × Value)}, readEntries fuel s = some (entries, rest) →
    ∃ (parts : List Entry) (trailing : Bool) (t : Text), (∀ e ∈ parts, e.Derived) ∧
      Laid (parts.map Entry.text) trailing t ∧
      entries = parts.map (fun e => (e.key, e.value)) ∧ s = t ++ '}' :: rest

theorem valuesDerived_succ (hitems : ItemsDerived fuel) (hentries : EntriesDerived fuel) :
    ValuesDerived (fuel + 1) := by
  intro s rest v h
  rw [readValue] at h
  split at h
  · exact absurd h (by simp)
  next c more htrim =>
  obtain ⟨before, hbefore, rfl⟩ := exists_blank_of_trimLeft htrim
  -- The first character that is no blank tells which reader goes on.
  suffices ∃ t, Denotes t v ∧ c :: more = t ++ rest by
    obtain ⟨t, ht, hmore⟩ := this
    exact ⟨before, t, hbefore, ht, by rw [hmore, List.append_assoc]⟩
  split at h
  · next hopen =>
    obtain ⟨⟨items, trailing, _⟩, hread, heq⟩ := Option.map_eq_some_iff.mp h
    obtain ⟨rfl, rfl⟩ := Prod.mk.inj heq
    obtain ⟨parts, t, hparts, hlaid, rfl, rfl⟩ := hitems hread
    exact ⟨'[' :: t ++ [']'], .list hparts hlaid, by simp [hopen]⟩
  split at h
  · next hopen =>
    obtain ⟨⟨items, trailing, _⟩, hread, heq⟩ := Option.map_eq_some_iff.mp h
    obtain ⟨rfl, rfl⟩ := Prod.mk.inj heq
    obtain ⟨parts, t, hparts, hlaid, rfl, rfl⟩ := hitems hread
    exact ⟨'(' :: t ++ [')'], .parentheses hparts hlaid, by simp [hopen]⟩
  split at h
  · next hopen =>
    obtain ⟨⟨entries, _⟩, hread, heq⟩ := Option.map_eq_some_iff.mp h
    obtain ⟨rfl, rfl⟩ := Prod.mk.inj heq
    obtain ⟨parts, trailing, t, hparts, hlaid, rfl, rfl⟩ := hentries hread
    exact ⟨'{' :: t ++ ['}'], .dict (fun e he => (hparts e he).key)
      (fun e he => (hparts e he).value) (fun e he => ⟨(hparts e he).before, (hparts e he).after⟩)
      hlaid, by simp [hopen]⟩
  · obtain ⟨t, hs, ht⟩ := denotes_of_readScalar h
    exact ⟨t, ht, hs⟩

theorem itemsDerived_succ (hvalues : ValuesDerived fuel) (hitems : ItemsDerived fuel) :
    ItemsDerived (fuel + 1) := by
  intro close s rest items trailing h
  rw [readItems] at h
  split at h
  · exact absurd h (by simp)
  next c more htrim =>
  obtain ⟨blanks, hblanks, rfl⟩ := exists_blank_of_trimLeft htrim
  split at h
  · next hclose =>
    obtain ⟨rfl, heq⟩ := Prod.mk.inj (Option.some_inj.mp h)
    obtain ⟨rfl, rfl⟩ := Prod.mk.inj heq
    exact ⟨[], blanks, List.forall_mem_nil _, .nil hblanks, rfl, by rw [hclose]⟩
  split at h
  · exact absurd h (by simp)
  next item _ hread =>
  obtain ⟨before, part, hbefore, hpart, hmore⟩ := hvalues hread
  split at h
  · exact absurd h (by simp)
  next d after' htrim' =>
  obtain ⟨after, hafter, rfl⟩ := exists_blank_of_trimLeft htrim'
  -- The part stands behind all the blanks that have been passed over.
  have hleft : Blank (blanks ++ before) := hblanks.append hbefore
  rw [hmore]
  split at h
  · next hcomma =>
    obtain ⟨⟨others, flag, _⟩, hothers, heq⟩ := Option.map_eq_some_iff.mp h
    simp only [Prod.mk.injEq] at heq
    obtain ⟨rfl, rfl, rfl⟩ := heq
    obtain ⟨parts, t, hparts, hlaid, rfl, rfl⟩ := hitems hothers
    have hempty : (parts.map Prod.snd).isEmpty = (parts.map Prod.fst).isEmpty := by
      simp
    refine ⟨(part, item) :: parts, blanks ++ before ++ part ++ after ++ ',' :: t,
      List.forall_mem_cons.mpr ⟨hpart, hparts⟩, ?_, rfl, by simp [hcomma]⟩
    rw [hempty]
    exact .comma hleft hafter hlaid
  split at h
  · next hclose =>
    obtain ⟨rfl, heq⟩ := Prod.mk.inj (Option.some_inj.mp h)
    obtain ⟨rfl, rfl⟩ := Prod.mk.inj heq
    exact ⟨[(part, item)], blanks ++ before ++ part ++ after,
      List.forall_mem_cons.mpr ⟨hpart, List.forall_mem_nil _⟩, .last hleft hafter, rfl,
      by simp [hclose]⟩
  · exact absurd h (by simp)

/-- An entry of a dictionary is derived if its key and its value are. -/
theorem ValuesDerived.entry (hvalues : ValuesDerived fuel) {key value : Value}
    {afterKey afterColon : Text} (hkey : readValue fuel s = some (key, afterKey))
    (hcolon : trimLeft afterKey = ':' :: afterColon)
    (hvalue : readValue fuel afterColon = some (value, rest)) :
    ∃ (before : Text) (e : Entry), Blank before ∧ e.Derived ∧ e.key = key ∧ e.value = value ∧
      s = before ++ e.text ++ rest := by
  obtain ⟨before, keyText, hbefore, hkeyText, rfl⟩ := hvalues hkey
  obtain ⟨beforeColon, hbeforeColon, rfl⟩ := exists_blank_of_trimLeft hcolon
  obtain ⟨afterColon, valueText, hafterColon, hvalueText, rfl⟩ := hvalues hvalue
  refine ⟨before, ⟨keyText, key, beforeColon, afterColon, valueText, value⟩, hbefore,
    ⟨hkeyText, hbeforeColon, hafterColon, hvalueText⟩, rfl, rfl, ?_⟩
  simp [Entry.text]

theorem entriesDerived_succ (hvalues : ValuesDerived fuel) (hentries : EntriesDerived fuel) :
    EntriesDerived (fuel + 1) := by
  intro s rest entries h
  rw [readEntries] at h
  split at h
  · exact absurd h (by simp)
  next c more htrim =>
  obtain ⟨blanks, hblanks, rfl⟩ := exists_blank_of_trimLeft htrim
  split at h
  · next hclose =>
    obtain ⟨rfl, rfl⟩ := Prod.mk.inj (Option.some_inj.mp h)
    exact ⟨[], false, blanks, List.forall_mem_nil _, .nil hblanks, rfl, by rw [hclose]⟩
  split at h
  · exact absurd h (by simp)
  next key afterKey hkey =>
  split at h
  · exact absurd h (by simp)
  next d afterColon hcolon =>
  split at h
  · exact absurd h (by simp)
  next hd =>
  obtain rfl := not_not.mp hd
  split at h
  · exact absurd h (by simp)
  next value afterValue hvalue =>
  obtain ⟨before, entry, hbefore, hentry, rfl, rfl, hmore⟩ := hvalues.entry hkey hcolon hvalue
  split at h
  · exact absurd h (by simp)
  next e _ htrim' =>
  obtain ⟨after, hafter, rfl⟩ := exists_blank_of_trimLeft htrim'
  have hleft : Blank (blanks ++ before) := hblanks.append hbefore
  rw [hmore]
  split at h
  · next hcomma =>
    obtain ⟨⟨others, _⟩, hothers, heq⟩ := Option.map_eq_some_iff.mp h
    obtain ⟨rfl, rfl⟩ := Prod.mk.inj heq
    obtain ⟨parts, trailing, t, hparts, hlaid, rfl, rfl⟩ := hentries hothers
    exact ⟨entry :: parts, _, blanks ++ before ++ entry.text ++ after ++ ',' :: t,
      List.forall_mem_cons.mpr ⟨hentry, hparts⟩, .comma hleft hafter hlaid, rfl,
      by simp [hcomma]⟩
  split at h
  · next hclose =>
    obtain ⟨rfl, rfl⟩ := Prod.mk.inj (Option.some_inj.mp h)
    exact ⟨[entry], false, blanks ++ before ++ entry.text ++ after,
      List.forall_mem_cons.mpr ⟨hentry, List.forall_mem_nil _⟩, .last hleft hafter, rfl,
      by simp [hclose]⟩
  · exact absurd h (by simp)

/-- **Whatever is read is derived**, with any fuel. -/
theorem derived (fuel : Nat) : ValuesDerived fuel ∧ ItemsDerived fuel ∧ EntriesDerived fuel := by
  induction fuel with
  | zero =>
    refine ⟨?_, ?_, ?_⟩
    · intro s rest v h
      exact absurd h (by simp [readValue])
    · intro close s rest items trailing h
      exact absurd h (by simp [readItems])
    · intro s rest entries h
      exact absurd h (by simp [readEntries])
  | succ fuel ih =>
    obtain ⟨hvalues, hitems, hentries⟩ := ih
    exact ⟨valuesDerived_succ hitems hentries, itemsDerived_succ hvalues hitems,
      entriesDerived_succ hvalues hentries⟩

/-- **The reader accepts exactly the literals**: a text is read as a value if and only if it is
a literal that denotes the value, with blanks around it or not. -/
theorem read?_eq_some_iff_denotes (s : Text) (v : Value) :
    read? s = some v ↔
      ∃ before t after, Blank before ∧ Blank after ∧ s = before ++ t ++ after ∧ Denotes t v := by
  constructor
  · intro h
    rw [read?] at h
    split at h
    · next value after hread =>
      split at h
      · next hafter =>
        obtain rfl := Option.some_inj.mp h
        obtain ⟨before, t, hbefore, ht, hs⟩ := (derived (fuelFor s)).1 hread
        refine ⟨before, t, after, hbefore, ?_, hs, ht⟩
        exact List.dropWhile_eq_nil_iff.mp (List.isEmpty_iff.mp hafter)
      · exact absurd h (by simp)
    · exact absurd h (by simp)
  · rintro ⟨before, t, after, hbefore, hafter, rfl, ht⟩
    exact read?_of_denotes ht hbefore hafter

end DesignRecipe.Literal

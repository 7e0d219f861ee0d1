import DesignRecipe.Path
import DesignRecipe.Proofs.Text.Lines
import Mathlib.Data.List.TakeWhile

/-!
# The steps of a path

Two paths may differ as texts and still say the same: `./a.py` and `a.py`, or `d//a.py`
and `d/a.py`. What a path says is where it starts and its **steps**, the names between its
slashes without the ones that say nothing. Everything that the program does to paths is
read here as something it does to steps.

| operation | on steps | theorem |
|---|---|---|
| a name below a directory | one step is added | `DesignRecipe.Path.steps_join` |
| the idle end dropped | nothing changes | `DesignRecipe.Path.steps_dropIdle` |
| last name and parent | the last step is split off | `DesignRecipe.Path.eq_of_fileName?` |

A step may still be `..`, which leads back. The names of files never are
(`DesignRecipe.Path.IsName`), and so neither is the last name of a path.
-/

namespace DesignRecipe.Path

/-- Whether a name between slashes says anything. -/
def Telling (name : RawText) : Prop := name ≠ [] ∧ name ≠ dot

instance (name : RawText) : Decidable (Telling name) := inferInstanceAs (Decidable (_ ∧ _))

/-- **The steps of a path**: its names, without those that say nothing. -/
def steps (path : RawText) : List RawText := (names path).filter (Telling ·)

/-- Whether a path starts from the root. -/
def Absolute (path : RawText) : Prop := path.head? = some slash

/-- **Two paths say the same**: they start from the same place and have the same steps. -/
def Same (p q : RawText) : Prop := (Absolute p ↔ Absolute q) ∧ steps p = steps q

/-- What a file or directory may be called. -/
structure IsName (name : RawText) : Prop where
  ne_nil : name ≠ []
  ne_dot : name ≠ dot
  ne_dots : name ≠ dots
  slash_notMem : slash ∉ name

instance (name : RawText) : Decidable (IsName name) :=
  decidable_of_iff (name ≠ [] ∧ name ≠ dot ∧ name ≠ dots ∧ slash ∉ name)
    ⟨fun ⟨h₁, h₂, h₃, h₄⟩ => ⟨h₁, h₂, h₃, h₄⟩, fun h => ⟨h.1, h.2, h.3, h.4⟩⟩

theorem IsName.telling {name : RawText} (h : IsName name) : Telling name := ⟨h.ne_nil, h.ne_dot⟩

/-- A text with more than two characters is a name, if it has no slash. -/
theorem IsName.of_length {name : RawText} (long : 2 < name.length) (hslash : slash ∉ name) :
    IsName name where
  ne_nil h := by simp [h] at long
  ne_dot h := by simp [h] at long
  ne_dots h := by simp [h] at long
  slash_notMem := hslash

namespace Same

variable {p q r : RawText}

theorem refl (p : RawText) : Same p p := ⟨Iff.rfl, rfl⟩

theorem symm (h : Same p q) : Same q p := ⟨h.1.symm, h.2.symm⟩

theorem trans (h : Same p q) (h' : Same q r) : Same p r := ⟨h.1.trans h'.1, h.2.trans h'.2⟩

end Same

/-! ### Names between slashes -/

theorem names_ne_nil (s : RawText) : names s ≠ [] := by
  cases s with
  | nil => simp [names]
  | cons c rest =>
    rw [names]
    split
    · exact List.cons_ne_nil _ _
    · split <;> exact List.cons_ne_nil _ _

/-- A slash parts the names. -/
theorem names_slash (s t : RawText) : names (s ++ slash :: t) = names s ++ names t := by
  induction s with
  | nil => simp [names]
  | cons c rest ih =>
    by_cases hc : c = slash
    · simp [names, hc, ih]
    · obtain ⟨name, more, e⟩ := List.exists_cons_of_ne_nil (names_ne_nil rest)
      simp [names, hc, ih, e]

/-- A text without a slash is one name. -/
theorem names_of_slash_notMem {s : RawText} (h : slash ∉ s) : names s = [s] := by
  induction s with
  | nil => rfl
  | cons c rest ih =>
    obtain ⟨hc, hrest⟩ := List.ne_and_not_mem_of_not_mem_cons h
    simp [names, hc.symm, ih hrest]

/-- The names of a path are those before its last slash and the one after it. -/
theorem names_split (path : RawText) :
    ∃ before, names (path.reverse.dropWhile (· != slash)).reverse = before ++ [[]] ∧
      names path = before ++ [(path.reverse.takeWhile (· != slash)).reverse] := by
  have whole : path = (path.reverse.dropWhile (· != slash)).reverse ++
      (path.reverse.takeWhile (· != slash)).reverse := by
    rw [← List.reverse_append, List.takeWhile_append_dropWhile, List.reverse_reverse]
  have last : names (path.reverse.takeWhile (· != slash)).reverse =
      [(path.reverse.takeWhile (· != slash)).reverse] :=
    names_of_slash_notMem fun h => Text.notMem_takeWhile_ne _ _ (List.mem_reverse.mp h)
  cases e : path.reverse.dropWhile (· != slash) with
  | nil =>
    rw [e, List.reverse_nil, List.nil_append] at whole
    exact ⟨[], rfl, by rw [List.nil_append, ← last, ← whole]⟩
  | cons c rest =>
    obtain rfl := Text.eq_of_dropWhile_ne e
    refine ⟨names rest.reverse, by rw [List.reverse_cons, names_slash]; rfl, ?_⟩
    rw [e, List.reverse_cons, List.append_assoc, List.singleton_append] at whole
    rw [← last, ← names_slash, ← whole]

/-! ### Steps -/

@[simp] theorem steps_nil : steps [] = [] := rfl

@[simp] theorem steps_dot : steps dot = [] := rfl

theorem steps_slash (s t : RawText) : steps (s ++ slash :: t) = steps s ++ steps t := by
  simp [steps, names_slash]

/-- A slash at the end says nothing. -/
theorem steps_append_slash (s : RawText) : steps (s ++ [slash]) = steps s := by
  rw [steps_slash, steps_nil, List.append_nil]

theorem steps_of_isName {name : RawText} (h : IsName name) : steps name = [name] := by
  simp [steps, names_of_slash_notMem h.slash_notMem, h.telling]

theorem IsName.not_absolute {name : RawText} (h : IsName name) : ¬Absolute name := fun e =>
  h.slash_notMem (List.mem_of_head? e)

/-! ### A name below a directory -/

variable {dir name : RawText}

/-- **A name below a directory** is one step more. -/
theorem steps_join (h : IsName name) : steps (join dir name) = steps dir ++ [name] := by
  have last := steps_of_isName h
  rw [join]
  split
  next bare =>
    obtain rfl | ends := bare
    · exact last
    · obtain ⟨front, rfl⟩ := List.getLast?_eq_some_iff.mp ends
      rw [List.append_assoc, List.singleton_append, steps_slash, steps_append_slash, last]
  next => rw [List.append_assoc, List.singleton_append, steps_slash, last]

theorem absolute_join (h : IsName name) : Absolute (join dir name) ↔ Absolute dir := by
  cases dir with
  | nil => simpa [join, Absolute] using h.not_absolute
  | cons c rest => rw [join]; split <;> simp [Absolute]

/-- Two names below two directories. -/
theorem same_join {dir' name' : RawText} (h : IsName name) (h' : IsName name') :
    Same (join dir name) (join dir' name') ↔ Same dir dir' ∧ name = name' := by
  simp only [Same, absolute_join h, absolute_join h', steps_join h, steps_join h']
  constructor
  · rintro ⟨start, e⟩
    obtain ⟨front, last⟩ := List.append_inj' e rfl
    exact ⟨⟨start, front⟩, List.singleton_inj.mp last⟩
  · rintro ⟨⟨start, front⟩, rfl⟩
    exact ⟨start, by rw [front]⟩

/-! ### The last name -/

/-- The idle end of a path says nothing. -/
theorem steps_dropIdle (r : RawText) : steps (dropIdle r).reverse = steps r.reverse := by
  fun_induction dropIdle r with
  | case1 c rest ih =>
    rw [ih, List.reverse_cons (a := slash), steps_append_slash]
  | case2 rest ih =>
    rw [ih, List.reverse_cons (a := RawChar.char '.'), List.reverse_cons, steps_append_slash,
      List.append_assoc, List.singleton_append, steps_slash, steps_dot, List.append_nil]
  | case3 => rfl

/-- The end of a path can be idle, its start cannot. -/
theorem getLast?_dropIdle (r : RawText) : (dropIdle r).getLast? = r.getLast? := by
  fun_induction dropIdle r with
  | case1 c rest ih => rw [ih, List.getLast?_cons_cons]
  | case2 rest ih => rw [ih, List.getLast?_cons_cons]
  | case3 => rfl

theorem absolute_reverse {r : RawText} : Absolute r.reverse ↔ r.getLast? = some slash := by
  rw [Absolute, List.head?_reverse]

/-- A path with a last name is, without its idle end, that name after nothing or after a
slash. -/
theorem exists_of_fileName? {path : RawText} (h : fileName? path = some name) :
    IsName name ∧ ∃ front, dropIdle path.reverse = name.reverse ++ front ∧
      (front = [] ∨ ∃ rest, front = slash :: rest) := by
  simp only [fileName?] at h
  generalize dropIdle path.reverse = kept at h ⊢
  split at h
  next => exact absurd h (by simp)
  next proper =>
    obtain rfl := Option.some.inj h
    obtain ⟨ne_nil, ne_dot, ne_dots⟩ : _ ∧ _ ∧ _ := by simpa only [not_or] using proper
    refine ⟨⟨ne_nil, ne_dot, ne_dots, fun m => ?_⟩, kept.dropWhile (· != slash), ?_, ?_⟩
    · exact Text.notMem_takeWhile_ne _ _ (List.mem_reverse.mp m)
    · rw [List.reverse_reverse, List.takeWhile_append_dropWhile]
    · cases e : kept.dropWhile (· != slash) with
      | nil => exact .inl rfl
      | cons c rest => exact .inr ⟨rest, by rw [Text.eq_of_dropWhile_ne e]⟩

/-- Up to the first slash of a reversed path is its last name. -/
theorem takeWhile_reverse_append (h : IsName name) {front : RawText}
    (hf : front = [] ∨ ∃ rest, front = slash :: rest) :
    (name.reverse ++ front).takeWhile (· != slash) = name.reverse ∧
      (name.reverse ++ front).dropWhile (· != slash) = front := by
  refine Text.takeWhile_ne_append (fun m => h.slash_notMem (List.mem_reverse.mp m)) ?_
  obtain rfl | ⟨rest, rfl⟩ := hf <;> simp

/-- **A path with a last name is that name below the parent.** -/
theorem same_join_parent {path : RawText} (h : fileName? path = some name) :
    IsName name ∧ ∃ dir, parent? path = some dir ∧ Same path (join dir name) := by
  obtain ⟨isName, front, kept, hf⟩ := exists_of_fileName? h
  refine ⟨isName, (dropIdle front).reverse, ?_, ?_, ?_⟩
  · have proper : ¬(name.reverse ++ front = [] ∨ name.reverse ++ front = [slash]) := by
      obtain ⟨c, rest, e⟩ := List.exists_cons_of_ne_nil
        (List.reverse_eq_nil_iff.not.mpr isName.ne_nil)
      have hc : c ≠ slash := fun e' => isName.slash_notMem (List.mem_reverse.mp (by simp [e, e']))
      simp [e, hc]
    simp only [parent?, kept, if_neg proper, (takeWhile_reverse_append isName hf).2]
  · have whole : Absolute path ↔ (name.reverse ++ front).getLast? = some slash := by
      rw [← kept, getLast?_dropIdle, ← absolute_reverse, List.reverse_reverse]
    rw [whole, absolute_join isName, absolute_reverse, getLast?_dropIdle]
    obtain rfl | ⟨rest, rfl⟩ := hf
    · simpa [Absolute] using isName.not_absolute
    · rw [List.getLast?_append, List.getLast?_cons, Option.some_or]
  · have whole : steps path = steps (name.reverse ++ front).reverse := by
      rw [← kept, steps_dropIdle, List.reverse_reverse]
    rw [whole, steps_join isName, steps_dropIdle, List.reverse_append, List.reverse_reverse]
    obtain rfl | ⟨rest, rfl⟩ := hf
    · exact steps_of_isName isName
    · rw [List.reverse_cons, steps_append_slash, List.append_assoc, List.singleton_append,
        steps_slash, steps_of_isName isName]

/-- A name has no idle end. -/
theorem dropIdle_of_isName (h : IsName name) (front : RawText) :
    dropIdle (name.reverse ++ front) = name.reverse ++ front := by
  obtain ⟨c, rest, e⟩ := List.exists_cons_of_ne_nil (List.reverse_eq_nil_iff.not.mpr h.ne_nil)
  have inside : ∀ x ∈ c :: rest, x ≠ slash := by
    rintro x hx rfl
    exact h.slash_notMem (List.mem_reverse.mp (e ▸ hx))
  rw [e, List.cons_append]
  generalize er : c :: (rest ++ front) = r
  fun_cases dropIdle r with
  | case1 => exact absurd (List.cons.inj er).1 (inside c List.mem_cons_self)
  | case2 =>
    -- a dot with a slash before it would be the whole name
    obtain ⟨rfl, er'⟩ := List.cons.inj er
    cases rest with
    | nil => exact absurd (by simpa using congrArg List.reverse e) h.ne_dot
    | cons d rest =>
      exact absurd (List.cons.inj er').1 (inside d (by simp))
  | case3 => rfl

/-- **The last name of a name below a directory** is that name. -/
theorem fileName?_join (h : IsName name) : fileName? (join dir name) = some name := by
  obtain ⟨front, e, hf⟩ : ∃ front, (join dir name).reverse = name.reverse ++ front ∧
      (front = [] ∨ ∃ rest, front = slash :: rest) := by
    rw [join]
    split
    next bare =>
      refine ⟨dir.reverse, List.reverse_append, bare.imp (by simp [·]) fun ends => ?_⟩
      obtain ⟨before, rfl⟩ := List.getLast?_eq_some_iff.mp ends
      exact ⟨before.reverse, by simp⟩
    next => exact ⟨slash :: dir.reverse, by simp, .inr ⟨_, rfl⟩⟩
  have whole : ((dropIdle (join dir name).reverse).takeWhile (· != slash)).reverse = name := by
    rw [e, dropIdle_of_isName h, (takeWhile_reverse_append h hf).1, List.reverse_reverse]
  simp only [fileName?, whole]
  exact if_neg (by simp [h.ne_nil, h.ne_dot, h.ne_dots])

end DesignRecipe.Path

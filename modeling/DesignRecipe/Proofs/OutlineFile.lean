import DesignRecipe.Machine
import DesignRecipe.OutlineFile
import DesignRecipe.Proofs.Disk
import Mathlib.Data.Char
import Mathlib.Data.List.Basic
import Mathlib.Data.List.Induction
import Mathlib.Data.List.Lex

/-!
# Outlines below a directory

An outline that is found below a directory is a name below further names below that
directory, and all of them are names of files. This is all there is to know about where it
stands: its own directory and its name can be told from its path, the place that the path
leads to is the place of the directory and these names, and two outlines that are found
never say the same (`DesignRecipe.OutlineFile.Found`).

That the names are names of files is a fact about the tree, which must not have a slash or a
`..` in a name (`DesignRecipe.Node.WellNamed`).
-/

namespace DesignRecipe

namespace Node

/-! ### The files of a tree -/

/-- All names on the way to a file of the tree are names of files. -/
def WellNamed (root : Node) : Prop := ∀ f ∈ root.files, ∀ name ∈ f.1, Path.IsName name

instance (root : Node) : Decidable root.WellNamed :=
  inferInstanceAs (Decidable (∀ f ∈ root.files, ∀ name ∈ f.1, Path.IsName name))

theorem mem_of_child? {name : RawText} {node : Node} {entries : List (RawText × Node)}
    (h : child? name entries = some node) : (name, node) ∈ entries := by
  induction entries with
  | nil => cases h
  | cons entry rest ih =>
    obtain ⟨n, other⟩ := entry
    rw [child?] at h
    split at h
    next e =>
      obtain rfl := Option.some.inj h
      exact e ▸ List.mem_cons_self
    next => exact List.mem_cons_of_mem _ (ih h)

/-- A file of a directory is a file of one of its entries. -/
theorem mem_filesIn {entries : List (RawText × Node)} {f : List RawText × Content} :
    f ∈ filesIn entries ↔ ∃ entry ∈ entries, ∃ g ∈ entry.2.files, f = (entry.1 :: g.1, g.2) := by
  induction entries with
  | nil => simp [filesIn]
  | cons entry rest ih =>
    obtain ⟨name, node⟩ := entry
    simp [filesIn, ih, eq_comm]

/-- The files below a place are files of the tree. -/
theorem mem_files_of_find? {root node : Node} {place : List RawText}
    (h : root.find? place = some node) {f : List RawText × Content} (hf : f ∈ node.files) :
    (place ++ f.1, f.2) ∈ root.files := by
  induction place generalizing root with
  | nil => exact Option.some.inj h ▸ hf
  | cons name place ih =>
    obtain ⟨inner, found, below⟩ := Option.bind_eq_some_iff.mp h
    cases root with
    | file => cases found
    | directory entries =>
      rw [files]
      exact mem_filesIn.mpr ⟨_, mem_of_child? found, _, ih below, rfl⟩

end Node

/-- **The files that are found below a directory** are under names of files. -/
theorem Node.WellNamed.of_mem_filesBelow {d : Disk} (h : d.root.WellNamed) {dir : RawText}
    (isDir : d.isDirectory dir = true) {names : List RawText} (listed : names ∈ d.filesBelow dir) :
    names ≠ [] ∧ ∀ name ∈ names, Path.IsName name := by
  rw [Disk.isDirectory, Disk.node?] at isDir
  rw [Disk.filesBelow, Disk.node?] at listed
  cases located : d.locate dir with
  | error => simp [located] at isDir
  | ok place =>
    simp only [located] at isDir listed
    rcases found : d.root.find? place with _ | _ | entries
    · simp [found] at isDir
    · simp [found] at isDir
    · simp only [found] at listed
      obtain ⟨f, mem, rfl⟩ := List.mem_map.mp listed
      have whole := h _ (Node.mem_files_of_find? found mem)
      rw [Node.files] at mem
      obtain ⟨entry, -, g, -, rfl⟩ := Node.mem_filesIn.mp mem
      exact ⟨List.cons_ne_nil _ _, (List.forall_mem_append.mp whole).2⟩

namespace OutlineFile

/-! ### Order -/

theorem bytesBefore_iff (s t : List Nat) : bytesBefore s t = true ↔ s < t := by
  induction s generalizing t with
  | nil => cases t <;> simp [bytesBefore]
  | cons a s ih => cases t <;> simp [bytesBefore, List.cons_lt_cons_iff, ih]

/-- **Places are ordered name by name**, and names byte by byte. -/
theorem notAfter_iff (p q : List RawText) :
    notAfter p q = true ↔ p.map RawText.octets ≤ q.map RawText.octets := by
  induction p generalizing q with
  | nil => cases q <;> simp [notAfter, le_iff_lt_or_eq]
  | cons a p ih =>
    cases q with
    | nil => simp [notAfter, le_iff_lt_or_eq]
    | cons b q =>
      rw [notAfter, Bool.or_eq_true, Bool.and_eq_true, beq_iff_eq, bytesBefore_iff, ih,
        le_iff_lt_or_eq, le_iff_lt_or_eq, List.map_cons, List.map_cons, List.cons_lt_cons_iff,
        List.cons.injEq]
      tauto

/-! ### Names of outlines -/

theorem isOutline_iff {name : Text} : isOutline name = true ↔ ∃ stem, name = stem ++ ending := by
  rw [isOutline, List.isSuffixOf_iff_suffix]
  exact ⟨fun ⟨stem, h⟩ => ⟨stem, h.symm⟩, fun ⟨stem, h⟩ => ⟨stem, h.symm⟩⟩

/-- Only a character is shown as itself where no character is replaced. -/
theorem eq_ofText_of_shown {s : RawText} {t : Text} (h : RawText.shown s = t)
    (plain : '\uFFFD' ∉ t) : s = RawText.ofText t := by
  induction s generalizing t with
  | nil => exact h ▸ rfl
  | cons c s ih =>
    obtain rfl := h
    obtain ⟨head, tail⟩ := List.ne_and_not_mem_of_not_mem_cons plain
    cases c with
    | char c => exact congrArg (_ :: ·) (ih rfl tail)
    | stray => exact absurd rfl head

/-- **What is found by its end has this end**: no end is shown that is not there. -/
theorem isOutline_shown_iff {name : RawText} :
    isOutline (RawText.shown name) = true ↔ ∃ stem, name = stem ++ RawText.ofText ending := by
  rw [isOutline_iff]
  constructor
  · rintro ⟨stem, h⟩
    obtain ⟨front, back, rfl, -, shown⟩ := List.map_eq_append_iff.mp h
    exact ⟨front, by rw [eq_ofText_of_shown shown (by decide)]⟩
  · rintro ⟨stem, rfl⟩
    exact ⟨RawText.shown stem, by rw [RawText.shown_append, RawText.shown_ofText]⟩

/-- **The module of an outline** is what its name has before the ending, and a text. -/
theorem moduleName_eq_ok {path : RawText} {module : Text} :
    moduleName path = .ok module ↔
      Path.fileName? path = some (RawText.ofText module ++ RawText.ofText ending) ∧
        module ≠ [] := by
  rw [moduleName]
  constructor
  · intro h
    split at h
    next => cases h
    next name found =>
      obtain ⟨raw, hraw, isText⟩ := Option.bind_eq_some_iff.mp found
      dsimp only at h
      split at h
      next proper =>
        obtain ⟨outline, ne_nil⟩ := Bool.and_eq_true_iff.mp proper
        obtain ⟨stem, rfl⟩ := isOutline_iff.mp outline
        have cut : (stem ++ ending).take ((stem ++ ending).length - ending.length) = stem := by
          simp
        rw [cut] at h ne_nil
        obtain rfl := Except.ok.inj h
        rw [hraw, RawText.text?_eq_some.mp isText, RawText.ofText_append]
        exact ⟨rfl, by simpa using ne_nil⟩
      next => cases h
  · rintro ⟨found, ne_nil⟩
    rw [found, ← RawText.ofText_append, Option.bind_some, RawText.text?_ofText]
    simp [isOutline_iff, ne_nil]

/-- A path without a module is rejected for what it is. -/
theorem moduleName_cases (path : RawText) :
    (∃ module, moduleName path = .ok module) ∨
      moduleName path = .error (.invalidOutlinePath path) := by
  rw [moduleName]
  split
  · exact .inr rfl
  · dsimp only
    split
    · exact .inl ⟨_, rfl⟩
    · exact .inr rfl

/-- **An outline is its name below its own directory.** -/
theorem same_join_ownDirectory {path name : RawText} (h : Path.fileName? path = some name) :
    Path.IsName name ∧ Path.Same path (Path.join (ownDirectory path) name) := by
  obtain ⟨isName, dir, parent, same⟩ := Path.same_join_parent h
  refine ⟨isName, same.trans ((Path.same_join isName isName).mpr ⟨?_, rfl⟩)⟩
  rw [ownDirectory, parent]
  cases dir with
  | nil => exact ⟨by simp [Path.Absolute], rfl⟩
  | cons => exact Path.Same.refl _

/-! ### Places below a directory -/

section Below

variable {dir : RawText} {place : List RawText}

theorem below_snoc (dir : RawText) (place : List RawText) (name : RawText) :
    below dir (place ++ [name]) = Path.join (below dir place) name := by
  simp [below]

theorem steps_below (h : ∀ name ∈ place, Path.IsName name) :
    Path.steps (below dir place) = Path.steps dir ++ place := by
  induction place using List.reverseRecOn with
  | nil => simp [below]
  | append_singleton place name ih =>
    rw [List.forall_mem_append, List.forall_mem_singleton] at h
    rw [below_snoc, Path.steps_join h.2, ih h.1, List.append_assoc]

theorem absolute_below (h : ∀ name ∈ place, Path.IsName name) :
    Path.Absolute (below dir place) ↔ Path.Absolute dir := by
  induction place using List.reverseRecOn with
  | nil => rfl
  | append_singleton place name ih =>
    rw [List.forall_mem_append, List.forall_mem_singleton] at h
    rw [below_snoc, Path.absolute_join h.2, ih h.1]

/-- A place below a directory leads on from where the directory is. -/
theorem destination_below (d : Disk) (h : ∀ name ∈ place, Path.IsName name) :
    d.destination (below dir place) = d.destination dir ++ place := by
  have start : d.start (below dir place) = d.start dir := if_congr (absolute_below h) rfl rfl
  rw [Disk.destination, Disk.destination, start, steps_below h, Node.resolve_append,
    Node.resolve_of_isName h]

end Below

/-- A path lies below a directory: it says what a path of names below the directory says. -/
def LiesBelow (dir path : RawText) : Prop :=
  ∃ place, (∀ name ∈ place, Path.IsName name) ∧ Path.Same path (below dir place)

/-- **Paths below a directory that lead to one place say the same.** -/
theorem LiesBelow.same {dir p q : RawText} (hp : LiesBelow dir p) (hq : LiesBelow dir q) {d : Disk}
    (h : d.destination p = d.destination q) : Path.Same p q := by
  obtain ⟨place, names, sp⟩ := hp
  obtain ⟨place', names', sq⟩ := hq
  rw [d.destination_congr sp, d.destination_congr sq, destination_below d names,
    destination_below d names', List.append_cancel_left_eq] at h
  exact sp.trans (h ▸ sq.symm)

end OutlineFile

/-! ### Outlines that are found -/

/-- The outlines that are found below a directory. -/
def Machine.found (m : Machine) (dir : RawText) : List RawText :=
  ((OutlineFile.discover dir : StateM Machine (List RawText)).run m).1

namespace OutlineFile

/-- **An outline that is found**: a name that ends as the names of outlines do, below names
below the directory. -/
structure Found (dir path : RawText) (place : List RawText) (stem : RawText) : Prop where
  names : ∀ name ∈ place, Path.IsName name
  isName : Path.IsName (stem ++ ending)
  path_eq : path = Path.join (below dir place) (stem ++ ending)

theorem mem_found {m : Machine} {dir path : RawText} : path ∈ m.found dir ↔
    ∃ names ∈ m.disk.filesBelow dir, isOutline (RawText.shown (foundName dir names)) = true ∧
      below dir names = path := by
  change path ∈ ((((m.disk.filesBelow dir).filter fun place =>
    isOutline (RawText.shown (foundName dir place))).mergeSort notAfter).map (below dir)) ↔ _
  simp only [List.mem_map, List.mem_mergeSort, List.mem_filter, and_assoc]

/-- **The outlines are found in order**: at the places of all outlines below the directory, from
the first to the last. -/
theorem exists_places (m : Machine) (dir : RawText) :
    ∃ places : List (List RawText), m.found dir = places.map (below dir) ∧
      places.Perm
        ((m.disk.filesBelow dir).filter fun place =>
          isOutline (RawText.shown (foundName dir place))) ∧
      places.Pairwise fun p q => p.map RawText.octets ≤ q.map RawText.octets := by
  obtain ⟨found, hfound⟩ : ∃ found,
      found = (m.disk.filesBelow dir).filter fun place =>
        isOutline (RawText.shown (foundName dir place)) :=
    ⟨_, rfl⟩
  have sorted : (found.mergeSort notAfter).Pairwise (notAfter · · = true) :=
    List.pairwise_mergeSort
      (fun p q r hpq hqr => (notAfter_iff p r).mpr
        (((notAfter_iff p q).mp hpq).trans ((notAfter_iff q r).mp hqr)))
      (fun p q => Bool.or_eq_true_iff.mpr
        ((le_total _ _).imp (notAfter_iff p q).mpr (notAfter_iff q p).mpr)) found
  rw [← hfound]
  exact ⟨found.mergeSort notAfter, hfound ▸ rfl, List.mergeSort_perm found notAfter,
    sorted.imp (notAfter_iff _ _).mp⟩

/-- Outlines that stand in order are found as they stand. -/
theorem found_of_pairwise {m : Machine} {dir : RawText} (places : List (List RawText))
    (all : (m.disk.filesBelow dir).filter
      (fun place => isOutline (RawText.shown (foundName dir place))) = places)
    (ordered : places.Pairwise (notAfter · · = true)) : m.found dir = places.map (below dir) := by
  change (((m.disk.filesBelow dir).filter fun place =>
    isOutline (RawText.shown (foundName dir place))).mergeSort notAfter).map (below dir) = _
  rw [all, List.mergeSort_of_pairwise ordered]

theorem exists_found {m : Machine} {dir path : RawText} (named : m.disk.root.WellNamed)
    (isDir : m.disk.isDirectory dir = true) (h : path ∈ m.found dir) :
    ∃ place stem, Found dir path place stem := by
  obtain ⟨names, listed, outline, rfl⟩ := mem_found.mp h
  obtain ⟨ne_nil, isName⟩ := named.of_mem_filesBelow isDir listed
  obtain ⟨place, name, rfl⟩ := (List.eq_nil_or_concat' names).resolve_left ne_nil
  obtain ⟨stem, rfl⟩ := isOutline_shown_iff.mp (by simpa [foundName] using outline)
  rw [List.forall_mem_append, List.forall_mem_singleton] at isName
  exact ⟨place, stem, isName.1, isName.2, below_snoc dir place _⟩

namespace Found

variable {dir path stem : RawText} {place : List RawText} (h : Found dir path place stem)
include h

theorem fileName? : Path.fileName? path = some (stem ++ ending) :=
  h.path_eq ▸ Path.fileName?_join h.isName

/-- The directory that the outline stands in. -/
theorem same_ownDirectory : Path.Same (ownDirectory path) (below dir place) := by
  have same := (same_join_ownDirectory h.fileName?).2.symm
  rw [h.path_eq] at same
  exact h.path_eq ▸ ((Path.same_join h.isName h.isName).mp same).1

/-- What stands beside an outline lies below the directory. -/
theorem liesBelow_join {name : RawText} (hn : Path.IsName name) :
    LiesBelow dir (Path.join (ownDirectory path) name) := by
  refine ⟨place ++ [name], List.forall_mem_append.mpr ⟨h.names, by simpa using hn⟩, ?_⟩
  rw [below_snoc]
  exact (Path.same_join hn hn).mpr ⟨h.same_ownDirectory, rfl⟩

theorem liesBelow : LiesBelow dir path := by
  refine ⟨place ++ [stem ++ ending], List.forall_mem_append.mpr ⟨h.names, ?_⟩, ?_⟩
  · simpa using h.isName
  · rw [below_snoc, h.path_eq]
    exact Path.Same.refl _

/-- **Two outlines that are found never say the same.** -/
theorem eq_of_same {path' : RawText} {place' : List RawText} {stem' : RawText}
    (h' : Found dir path' place' stem') (same : Path.Same path path') : path = path' := by
  have e := same.2
  rw [h.path_eq, h'.path_eq, Path.steps_join h.isName, Path.steps_join h'.isName,
    steps_below h.names, steps_below h'.names, List.append_assoc, List.append_assoc,
    List.append_cancel_left_eq] at e
  rw [h.path_eq, h'.path_eq, ← below_snoc, ← below_snoc, e]

end Found

end OutlineFile

end DesignRecipe

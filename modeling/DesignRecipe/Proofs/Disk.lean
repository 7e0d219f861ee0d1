import DesignRecipe.Disk
import DesignRecipe.Proofs.Path

/-!
# What a write changes

A write changes what one path leads to, and nothing that any other path leads to. The
trouble with saying so is that a path is followed through directories, and that these do
change: an entry is set in one of them, and with it all directories above. So two trees are
not compared by their nodes but by their **shape** at a place: nothing, a directory, or a
file with what it holds (`DesignRecipe.Node.shape?`). A write changes the shape at one place
(`DesignRecipe.Node.shape?_insert`), and as there is no directory at that place before or
after, no path leads through it.

Where a path leads, if it leads anywhere, can be told without the tree
(`DesignRecipe.Disk.destination`). This is what the places of two paths are compared by.
-/

namespace DesignRecipe

namespace Node

/-! ### Shapes -/

/-- What stands at a place: nothing, a directory, or a file with its content. -/
def shape? (root : Node) (place : List RawText) : Option (Option Content) :=
  (root.find? place).map fun
    | .file content => some content
    | .directory _ => none

theorem shape?_eq_directory {root : Node} {place : List RawText} :
    root.shape? place = some none ↔ ∃ entries, root.find? place = some (.directory entries) := by
  rw [shape?]
  rcases root.find? place with _ | _ | _ <;> simp

theorem shape?_eq_file {root : Node} {place : List RawText} {content : Content} :
    root.shape? place = some (some content) ↔ root.find? place = some (.file content) := by
  rw [shape?]
  rcases root.find? place with _ | _ | _ <;> simp

@[simp] theorem shape?_directory_nil (entries : List (RawText × Node)) :
    (directory entries).shape? [] = some none := rfl

@[simp] theorem shape?_file_nil (content : Content) :
    (file content).shape? [] = some (some content) := rfl

@[simp] theorem shape?_directory_cons (entries : List (RawText × Node)) (name : RawText)
    (rest : List RawText) :
    (directory entries).shape? (name :: rest) = (child? name entries).bind (·.shape? rest) := by
  simp only [shape?, find?, Node.entries, Option.map_bind]
  rfl

/-- Nothing stands below a file. -/
@[simp] theorem shape?_file_cons (content : Content) (name : RawText) (rest : List RawText) :
    (file content).shape? (name :: rest) = none := rfl

/-- What stands in a directory is told by its entries. -/
theorem shape?_snoc {root : Node} {place : List RawText} {entries : List (RawText × Node)}
    (h : root.find? place = some (.directory entries)) (name : RawText) :
    root.shape? (place ++ [name]) = (child? name entries).bind (·.shape? []) := by
  induction place generalizing root with
  | nil =>
    obtain rfl := Option.some.inj h
    simp
  | cons first place ih =>
    cases root with
    | file content => simp [find?, child?, Node.entries] at h
    | directory siblings =>
      obtain ⟨inner, found, below⟩ := Option.bind_eq_some_iff.mp h
      have found : child? first siblings = some inner := found
      simp [found, ih below]

/-- **A file that is put into a directory changes the shape at its own place alone**, unless
it replaces a directory. -/
theorem shape?_insert {root : Node} {place v : List RawText} {name : RawText} (content : Content)
    (inside : root.shape? place = some none)
    (free : root.shape? (place ++ [name]) ≠ some none) (hv : v ≠ place ++ [name]) :
    (insert (.file content) (place ++ [name]) root).shape? v = root.shape? v := by
  induction place generalizing root v with
  | nil =>
    cases root with
    | file => simp at inside
    | directory entries =>
      cases v with
      | nil => rfl
      | cons n rest =>
        by_cases hn : n = name
        · subst hn
          obtain ⟨r, rest, rfl⟩ := List.exists_cons_of_ne_nil (l := rest) (by simpa using hv)
          rcases e : child? n entries with _ | _ | _ <;>
            simp_all [insert, child?_setEntry, Node.entries]
        · simp [insert, child?_setEntry, Node.entries, hn]
  | cons first place ih =>
    cases root with
    | file => simp at inside
    | directory entries =>
      rw [shape?_directory_cons] at inside
      obtain ⟨inner, found, within⟩ := Option.bind_eq_some_iff.mp inside
      cases v with
      | nil => rfl
      | cons n rest =>
        by_cases hn : n = first
        · subst hn
          have away : rest ≠ place ++ [name] := by simpa using hv
          have free : inner.shape? (place ++ [name]) ≠ some none := by simpa [found] using free
          simpa [insert, child?_setEntry, Node.entries, found] using ih within free away
        · simp [insert, child?_setEntry, Node.entries, hn]

/-! ### Walks -/

/-- **A walk** along names from a place to another: every name needs a directory to stand
in, says nothing, leads back or leads to an entry. -/
inductive Walks (root : Node) : List RawText → List RawText → List RawText → Prop
  | done (place : List RawText) : Walks root place [] place
  | idle {place rest last : List RawText} {name : RawText} (dir : root.shape? place = some none)
      (silent : ¬Path.Telling name) (more : Walks root place rest last) :
      Walks root place (name :: rest) last
  | back {place rest last : List RawText} (dir : root.shape? place = some none)
      (more : Walks root place.dropLast rest last) :
      Walks root place (Path.dots :: rest) last
  | down {place rest last : List RawText} {name : RawText} (dir : root.shape? place = some none)
      (telling : Path.Telling name) (ahead : name ≠ Path.dots)
      (short : (RawText.octets name).length ≤ longestName)
      (entry : root.shape? (place ++ [name]) ≠ none)
      (more : Walks root (place ++ [name]) rest last) : Walks root place (name :: rest) last

/-- A name that says nothing, as the walk asks for it. -/
theorem not_telling_iff {name : RawText} : ¬Path.Telling name ↔ name = [] ∨ name = Path.dot := by
  rw [Path.Telling, not_and_or, not_not, not_not]

/-- Whether there is an entry, as the walk asks for it. -/
theorem isNone_child?_iff {root : Node} {place : List RawText} {entries : List (RawText × Node)}
    (h : root.find? place = some (.directory entries)) (name : RawText) :
    (child? name entries).isNone = true ↔ root.shape? (place ++ [name]) = none := by
  rw [shape?_snoc h]
  rcases child? name entries with _ | _ | _ <;> simp

/-- **What `DesignRecipe.Node.walk` follows are the walks.** -/
theorem walk_eq_ok {root : Node} {place names last : List RawText} :
    walk root place names = .ok last ↔ Walks root place names last := by
  constructor
  · intro h
    fun_induction walk root place names with
    | case1 place => exact Except.ok.inj h ▸ .done place
    | case2 place name rest entries found silent ih =>
      exact .idle (shape?_eq_directory.mpr ⟨_, found⟩) (not_telling_iff.mpr silent) (ih h)
    | case3 place rest entries found _ ih =>
      exact .back (shape?_eq_directory.mpr ⟨_, found⟩) (ih h)
    | case6 place name rest entries found telling ahead short entry ih =>
      exact .down (shape?_eq_directory.mpr ⟨_, found⟩)
        (not_not.mp (mt not_telling_iff.mp telling)) ahead (not_lt.mp short)
        (mt (isNone_child?_iff found name).mpr entry) (ih h)
    | case4 | case5 | case7 | case8 => cases h
  · intro h
    induction h with
    | done place => rfl
    | idle dir silent more ih =>
      obtain ⟨entries, found⟩ := shape?_eq_directory.mp dir
      simp only [walk, found, if_pos (not_telling_iff.mp silent), ih]
    | back dir more ih =>
      obtain ⟨entries, found⟩ := shape?_eq_directory.mp dir
      simpa [walk, found] using ih
    | down dir telling ahead short entry more ih =>
      obtain ⟨entries, found⟩ := shape?_eq_directory.mp dir
      simp only [walk, found, if_neg (mt not_telling_iff.mpr (not_not.mpr telling)), if_neg ahead,
        if_neg (not_lt.mpr short), if_neg (mt (isNone_child?_iff found _).mp entry), ih]

/-- Where a step leads from a place. -/
def follow (place : List RawText) (step : RawText) : List RawText :=
  if step = Path.dots then place.dropLast else place ++ [step]

/-- **Where steps lead from a place**, if they lead anywhere. -/
def resolve (place steps : List RawText) : List RawText := steps.foldl follow place

theorem resolve_append (place p q : List RawText) :
    resolve place (p ++ q) = resolve (resolve place p) q := List.foldl_append

/-- Names of files lead on. -/
theorem resolve_of_isName {place names : List RawText} (h : ∀ name ∈ names, Path.IsName name) :
    resolve place names = place ++ names := by
  induction names generalizing place with
  | nil => simp [resolve]
  | cons name rest ih =>
    have hname := h name List.mem_cons_self
    have hrest : resolve (place ++ [name]) rest = place ++ [name] ++ rest :=
      ih fun n hn => h n (List.mem_cons_of_mem _ hn)
    rw [resolve] at hrest ⊢
    rw [List.foldl_cons, follow, if_neg hname.ne_dots, hrest, List.append_assoc,
      List.singleton_append]

namespace Walks

variable {root : Node} {place names last : List RawText}

theorem eq_resolve (h : Walks root place names last) :
    last = resolve place (names.filter (Path.Telling ·)) := by
  induction h with
  | done => rfl
  | idle dir silent more ih => simpa [silent] using ih
  | back dir more ih => simpa [resolve, follow, Path.Telling] using ih
  | down dir telling ahead short entry more ih => simpa [telling, resolve, follow, ahead] using ih

theorem append {names' last' : List RawText} (h : Walks root place names last)
    (h' : Walks root last names' last') : Walks root place (names ++ names') last' := by
  induction h with
  | done => exact h'
  | idle dir silent more ih => exact .idle dir silent (ih h')
  | back dir more ih => exact .back dir (ih h')
  | down dir telling ahead short entry more ih => exact .down dir telling ahead short entry (ih h')

/-- Before a name that says nothing the walk is already where it ends, in a directory. -/
theorem of_append_nil (h : Walks root place (names ++ [[]]) last) :
    Walks root place names last ∧ root.shape? last = some none := by
  induction names generalizing place with
  | nil =>
    cases h with
    | idle dir silent more =>
      cases more
      exact ⟨.done _, dir⟩
    | down dir telling => exact absurd rfl telling.1
  | cons name rest ih =>
    cases h with
    | idle dir silent more => exact (ih more).imp_left (.idle dir silent)
    | back dir more => exact (ih more).imp_left (.back dir)
    | down dir telling ahead short entry more =>
      exact (ih more).imp_left (.down dir telling ahead short entry)

end Walks

/-- Two trees have the same shape at all places but one, where neither has a directory. -/
structure AgreeOff (t : List RawText) (root root' : Node) : Prop where
  elsewhere : ∀ v, v ≠ t → root'.shape? v = root.shape? v
  noDirectory : root.shape? t ≠ some none
  noDirectory' : root'.shape? t ≠ some none

namespace AgreeOff

variable {t : List RawText} {root root' : Node}

theorem symm (h : AgreeOff t root root') : AgreeOff t root' root where
  elsewhere v hv := (h.elsewhere v hv).symm
  noDirectory := h.noDirectory'
  noDirectory' := h.noDirectory

/-- The directories of both are the same. -/
theorem directory (h : AgreeOff t root root') {v : List RawText} (hv : root.shape? v = some none) :
    root'.shape? v = some none := by
  rw [h.elsewhere v fun e => h.noDirectory (e ▸ hv), hv]

/-- **Walks that end elsewhere are the same in both**: no walk leads through a place
without a directory. -/
theorem walks (h : AgreeOff t root root') {place names last : List RawText} (away : last ≠ t)
    (w : Walks root place names last) : Walks root' place names last := by
  induction w with
  | done place => exact .done place
  | idle dir silent more ih => exact .idle (h.directory dir) silent (ih away)
  | back dir more ih => exact .back (h.directory dir) (ih away)
  | @down place rest last name dir telling ahead short entry more ih =>
    have through : place ++ [name] ≠ t := by
      rintro e
      -- the walk would have to end here or go on from a directory
      cases more with
      | done => exact away e
      | idle dir | back dir | down dir => exact h.noDirectory (e ▸ dir)
    exact .down (h.directory dir) telling ahead short (h.elsewhere _ through ▸ entry) (ih away)

end AgreeOff

end Node

namespace Disk

variable {d d' : Disk}

/-! ### Files under paths -/

/-- **The place that a path leads to**, if it leads anywhere. -/
def destination (d : Disk) (path : RawText) : List RawText :=
  Node.resolve (d.start path) (Path.steps path)

/-- **The content of the file that a path leads to**, if it leads to a file. -/
def content? (d : Disk) (path : RawText) : Option Content :=
  match d.node? path with
  | some (.file content) => some content
  | _ => none

/-- Paths that say the same lead to the same place. -/
theorem destination_congr (d : Disk) {p q : RawText} (h : Path.Same p q) :
    d.destination p = d.destination q := by
  have start : d.start p = d.start q := if_congr h.1 rfl rfl
  rw [destination, destination, start, h.2]

theorem locate_eq_ok {path : RawText} {place : List RawText} :
    d.locate path = .ok place ↔
      checkPath path = .ok () ∧ d.root.Walks (d.start path) (Path.names path) place := by
  rw [locate, ← Node.walk_eq_ok]
  rcases checkPath path with e | _
  · simp [bind, Except.bind]
  · simp [bind, Except.bind]

theorem content?_eq_some {path : RawText} {content : Content} :
    d.content? path = some content ↔
      checkPath path = .ok () ∧ d.root.Walks (d.start path) (Path.names path) (d.destination path) ∧
        d.root.shape? (d.destination path) = some (some content) := by
  rw [content?, node?]
  constructor
  · intro h
    cases e : d.locate path with
    | error => simp [e] at h
    | ok place =>
      obtain ⟨ok, w⟩ := locate_eq_ok.mp e
      obtain rfl : place = d.destination path := w.eq_resolve
      refine ⟨ok, w, Node.shape?_eq_file.mpr ?_⟩
      simp only [e] at h
      rcases found : d.root.find? (d.destination path) with _ | _ | _ <;> simp_all
  · rintro ⟨ok, w, found⟩
    rw [locate_eq_ok.mpr ⟨ok, w⟩]
    simp [Node.shape?_eq_file.mp found]

/-- What is read from a path is the content of the file there. -/
theorem read_eq_ok {path : RawText} {s : Text} :
    d.read path = .ok s ↔ d.content? path = some (.text s) := by
  rw [read, content?, node?]
  rcases d.locate path with e | place
  · simp [bind, Except.bind]
  · simp only [bind, Except.bind]
    rcases d.root.find? place with _ | ⟨_ | _⟩ | _ <;> simp

/-! ### Writing -/

/-- **What is written to** under a path: a name in a directory that the rest of the path
leads to, and not a directory itself. -/
structure Slot (d : Disk) (path : RawText) (before place : List RawText) (name : RawText) :
    Prop where
  ok : checkPath path = .ok ()
  names_eq : Path.names path = before ++ [name]
  telling : Path.Telling name
  ahead : name ≠ Path.dots
  short : (RawText.octets name).length ≤ Node.longestName
  walks : d.root.Walks (d.start path) before place
  directory : d.root.shape? place = some none
  free : d.root.shape? (place ++ [name]) ≠ some none

/-- A slot is where its path leads to. -/
theorem Slot.destination_eq {path name : RawText} {before place : List RawText}
    (h : d.Slot path before place name) : d.destination path = place ++ [name] := by
  have steps : Path.steps path = before.filter (Path.Telling ·) ++ [name] := by
    simp [Path.steps, h.names_eq, h.telling]
  rw [destination, steps, Node.resolve_append, ← h.walks.eq_resolve]
  exact if_neg h.ahead

/-- A path without a slash at its end has nothing to drop there. -/
theorem dropWhile_slash {path : RawText} (h : path.getLast? ≠ some Path.slash) :
    path.reverse.dropWhile (· == Path.slash) = path.reverse := by
  rw [List.getLast?_eq_head?_reverse] at h
  cases e : path.reverse with
  | nil => rfl
  | cons c rest =>
    have hc : c ≠ Path.slash := by simpa [e] using h
    exact List.dropWhile_cons_of_neg (by simpa using hc)

theorem exists_of_target {path : RawText} {t : List RawText} (h : d.target path = .ok t) :
    ∃ before place name, d.Slot path before place name ∧ t = place ++ [name] := by
  rw [target] at h
  cases ok : checkPath path with
  | error => simp [ok, bind, Except.bind] at h
  | ok =>
    by_cases slash : path.getLast? = some Path.slash
    · simp [ok, bind, Except.bind, slash] at h
      split at h <;> cases h
    · simp only [ok, bind, Except.bind, dropWhile_slash slash] at h
      obtain ⟨before, front, all⟩ := Path.names_split path
      generalize (path.reverse.takeWhile (· != Path.slash)).reverse = name at h all
      generalize (path.reverse.dropWhile (· != Path.slash)).reverse = start at h front
      rw [front] at h
      split at h
      next => cases h
      next place w =>
        obtain ⟨w, dir⟩ := (Node.walk_eq_ok.mp w).of_append_nil
        obtain ⟨entries, found⟩ := Node.shape?_eq_directory.mp dir
        split at h
        next => cases h
        next proper =>
          obtain ⟨ne_nil, ne_dot, ahead, -⟩ : _ ∧ _ ∧ _ ∧ _ := by
            simpa only [not_or] using proper
          split at h
          next => cases h
          next short =>
            simp only [found] at h
            have free : d.root.shape? (place ++ [name]) ≠ some none := by
              rw [Node.shape?_snoc found]
              rcases e : Node.child? name entries with _ | _ | _ <;> simp_all
            refine ⟨before, place, name,
              ⟨ok, all, ⟨ne_nil, ne_dot⟩, ahead, not_lt.mp short, w, dir, free⟩, ?_⟩
            rcases e : Node.child? name entries with _ | _ | _ <;> simp_all

/-- **A write sets a file in its slot.** -/
theorem exists_of_write {path : RawText} {s : Text} (h : d.write path s = .ok d') :
    ∃ before place name, d.Slot path before place name ∧
      d' = { d with root := .insert (.file (.text s)) (place ++ [name]) d.root } := by
  rw [write] at h
  cases found : d.target path with
  | error => simp [found, bind, Except.bind] at h
  | ok t =>
    obtain ⟨before, place, name, slot, rfl⟩ := exists_of_target found
    simp only [found, bind, Except.bind, pure, Except.pure] at h
    exact ⟨before, place, name, slot, (Except.ok.inj h).symm⟩

section Write

variable {path : RawText} {s : Text} (h : d.write path s = .ok d')
include h

/-- A write moves no start of a path, -/
theorem start_of_write (q : RawText) : d'.start q = d.start q := by
  obtain ⟨-, -, -, -, rfl⟩ := exists_of_write h
  rfl

/-- and so no path. -/
theorem destination_of_write (q : RawText) : d'.destination q = d.destination q := by
  rw [destination, destination, start_of_write h]

/-- The tree is changed at one place only. -/
theorem agreeOff_of_write : d.root.AgreeOff (d.destination path) d'.root := by
  obtain ⟨before, place, name, slot, rfl⟩ := exists_of_write h
  rw [slot.destination_eq]
  refine ⟨fun v hv => Node.shape?_insert _ slot.directory slot.free hv, slot.free, ?_⟩
  simp [Node.shape?, Node.find?_insert]

/-- **What is written can be read back.** -/
theorem content?_of_write : d'.content? path = some (.text s) := by
  have agree := agreeOff_of_write h
  have same := destination_of_write h path
  obtain ⟨before, place, name, slot, rfl⟩ := exists_of_write h
  rw [slot.destination_eq] at agree same
  have written : (Node.insert (.file (.text s)) (place ++ [name]) d.root).shape?
      (place ++ [name]) = some (some (.text s)) :=
    Node.shape?_eq_file.mpr (Node.find?_insert _ _ _)
  have away : place ≠ place ++ [name] := by simp
  rw [content?_eq_some, same, slot.names_eq]
  refine ⟨slot.ok, (agree.walks away slot.walks).append ?_, written⟩
  exact .down (agree.directory slot.directory) slot.telling slot.ahead slot.short
    (by simp [written]) (.done _)

/-- **What other paths lead to is left as it was.** -/
theorem content?_of_write_of_ne {q : RawText} (hq : d.destination q ≠ d.destination path) :
    d'.content? q = d.content? q := by
  have agree := agreeOff_of_write h
  refine Option.ext fun content => ?_
  rw [content?_eq_some, content?_eq_some, destination_of_write h, start_of_write h,
    agree.elsewhere _ hq]
  exact and_congr_right fun _ => and_congr_left fun _ => ⟨agree.symm.walks hq, agree.walks hq⟩

end Write

end Disk

end DesignRecipe

import DesignRecipe.Proofs.CommandLine.Turn

/-!
# Outlines that abort stay by themselves

With nothing to ask, what a run does to the files can be told from the files alone: the outlines
take their turns in order, and each of them `DesignRecipe.Disk.Settles`. If what it holds at this
moment cannot be read to its end, nothing is written. Otherwise its stub is written, and then its
tests. Later outlines are read from the files as they are then, so one that is overwritten by an
earlier turn is read as it has been overwritten.

A run that meets no other trouble is such a batch, and where there is such a batch, the run meets
no trouble. The exit status tells whether an outline has aborted.
-/

namespace DesignRecipe

/-! ### Batches -/

namespace Disk

/-- **What one outline does to the files**, and what is made from it, unless it aborts. -/
inductive Settles (settings : Settings) (dir? : Option RawText) (d : Disk) (path : RawText) :
    Option Generation → Disk → Prop
  /-- Nothing is written for an outline that aborts. -/
  | aborted {a : Outline.Abort} : d.Aborts settings path a → Settles settings dir? d path none d
  /-- The stub is written, and then the tests. -/
  | written {g : Generation} {d₁ d₂ : Disk} : d.Yields settings dir? path g →
      d.write g.stub.path g.stub.contents = .ok d₁ →
      d₁.write g.tests.path g.tests.contents = .ok d₂ → Settles settings dir? d path (some g) d₂

/-- **What outlines do to the files**, one after the other. -/
inductive Batch (settings : Settings) (dir? : Option RawText) :
    Disk → List RawText → List (Option Generation) → Disk → Prop
  | nil (d : Disk) : Batch settings dir? d [] [] d
  | cons {d d₁ d₂ : Disk} {path : RawText} {rest : List RawText} {result : Option Generation}
      {results : List (Option Generation)} : d.Settles settings dir? path result d₁ →
      Batch settings dir? d₁ rest results d₂ →
      Batch settings dir? d (path :: rest) (result :: results) d₂

variable {settings : Settings} {dir? : Option RawText} {d d' : Disk} {path : RawText}
  {paths place : List RawText} {result : Option Generation} {results : List (Option Generation)}

/-- A path leads to where it did before. -/
theorem Settles.destination (h : d.Settles settings dir? path result d') (q : RawText) :
    d'.destination q = d.destination q := by
  cases h with
  | aborted => rfl
  | written _ stub tests => rw [destination_of_write tests, destination_of_write stub]

/-- **An outline changes nothing but its own files.** -/
theorem Settles.shape? (h : d.Settles settings dir? path result d')
    (away : ∀ g, result = some g → ∀ a ∈ g.artifacts, d.destination a.path ≠ place) :
    d'.root.shape? place = d.root.shape? place := by
  cases h with
  | aborted => rfl
  | @written g d₁ d₂ _ stub tests =>
    obtain ⟨awayStub, awayTests⟩ := Generation.forall_mem_artifacts.mp (away g rfl)
    rw [← destination_of_write stub] at awayTests
    rw [(agreeOff_of_write tests).elsewhere _ awayTests.symm,
      (agreeOff_of_write stub).elsewhere _ awayStub.symm]

/-- **A batch changes nothing but the files of its outlines.** -/
theorem Batch.shape? (h : d.Batch settings dir? paths results d')
    (away : ∀ g, some g ∈ results → ∀ a ∈ g.artifacts, d.destination a.path ≠ place) :
    d'.root.shape? place = d.root.shape? place := by
  induction h with
  | nil => rfl
  | @cons d d₁ d₂ path rest result results settled _ ih =>
    have later : ∀ g, some g ∈ results → ∀ a ∈ g.artifacts, d₁.destination a.path ≠ place := by
      intro g hg a ha
      rw [settled.destination]
      exact away g (List.mem_cons_of_mem _ hg) a ha
    rw [ih later]
    exact settled.shape? fun g hg => away g (hg ▸ List.mem_cons_self)

end Disk

namespace CommandLine

variable {colored : Bool} {format : Format} {settings : Settings} {dir? config? : Option RawText}
  {m m' : Machine} {path : RawText} {paths : List RawText} {n : Nat} {d' : Disk}
  {result : Option Generation} {results : List (Option Generation)}

/-! ### Turns of a batch -/

/-- A file is written without a question. -/
theorem run_writeArtifacts_force (a : Artifact) (rest : List Artifact) (m : Machine) :
    (writeArtifacts true (a :: rest) : StateM Machine (Except Trouble Unit)).run m =
      match m.disk.write a.path a.contents with
      | .error e => (.error (.writing a.path (.io e)), m)
      | .ok d => (writeArtifacts true rest : StateM Machine (Except Trouble Unit)).run
          { m with disk := d } := by
  have stored : (a.write : StateM Machine (Except Failure Unit)).run m =
      ((m.write a.path a.contents).1.mapError .io, (m.write a.path a.contents).2) := rfl
  have asked : (mayWrite true a.path : StateM Machine (Except Trouble Bool)).run m =
      (.ok true, m) := rfl
  rw [writeArtifacts, StateT.run_bind, asked]
  change ((a.write >>= fun _ => _ : StateM Machine (Except Trouble Unit)).run m) = _
  rw [StateT.run_bind, stored, Machine.write]
  cases m.disk.write a.path a.contents <;> rfl

/-- The number of outlines that have aborted, of one. -/
def aborts (result : Option Generation) : Nat := if result.isNone then 1 else 0

/-- **A turn without trouble settles the outline.** -/
theorem settles_of_turn (h : turn colored settings dir? true format path m = (.ok n, m')) :
    ∃ result, m.disk.Settles settings dir? path result m'.disk ∧ n = aborts result := by
  rw [turn] at h
  cases made : Generation.made settings dir? m.disk path with
  | error f =>
    cases f with
    | aborted a =>
      obtain ⟨rfl, rfl⟩ : 1 = n ∧ _ = m' := by simpa [made] using h
      exact ⟨none, .aborted (Generation.made_eq_aborted.mp made), rfl⟩
    | _ => simp [made] at h
  | ok g =>
    simp only [made, Generation.artifacts, run_writeArtifacts_force, disk_shown] at h
    cases stub : m.disk.write g.stub.path g.stub.contents with
    | error => simp [stub, Except.map] at h
    | ok d₁ =>
      cases tests : d₁.write g.tests.path g.tests.contents with
      | error => simp [stub, tests, Except.map] at h
      | ok d₂ =>
        simp only [stub, tests] at h
        obtain ⟨count, rfl⟩ := Prod.mk.inj h
        refine ⟨some g, .written (Generation.made_eq_ok.mp made) stub tests, ?_⟩
        exact (Except.ok.inj count).symm

/-- **Where an outline settles, its turn goes without trouble.** -/
theorem turn_of_settles (colored : Bool) (format : Format)
    (h : m.disk.Settles settings dir? path result d') :
    ∃ m', turn colored settings dir? true format path m = (.ok (aborts result), m') ∧
      m'.disk = d' := by
  rw [turn]
  cases h with
  | aborted stops =>
    rw [Generation.made_eq_aborted.mpr stops]
    exact ⟨_, rfl, rfl⟩
  | written yields stub tests =>
    rw [Generation.made_eq_ok.mpr yields]
    simp only [Generation.artifacts, run_writeArtifacts_force, disk_shown, stub, tests]
    exact ⟨_, rfl, rfl⟩

/-! ### Runs over a batch -/

/-- **Turns without trouble are a batch.** -/
theorem batch_of_turns (h : turns colored settings dir? true format paths m = (.ok n, m')) :
    ∃ results, m.disk.Batch settings dir? paths results m'.disk ∧
      n = results.countP Option.isNone := by
  induction paths generalizing m n with
  | nil =>
    obtain ⟨rfl, rfl⟩ : 0 = n ∧ m = m' := by simpa using h
    exact ⟨[], .nil _, rfl⟩
  | cons path rest ih =>
    rw [turns_cons] at h
    rcases first : turn colored settings dir? true format path m with ⟨t | k, m₁⟩
    · simp [first] at h
    · rcases later : turns colored settings dir? true format rest m₁ with ⟨t | l, m₂⟩
      · simp [first, later, Except.map] at h
      · obtain ⟨rfl, rfl⟩ : l + k = n ∧ m₂ = m' := by simpa [first, later, Except.map] using h
        obtain ⟨result, settled, rfl⟩ := settles_of_turn first
        obtain ⟨results, batch, rfl⟩ := ih later
        refine ⟨result :: results, .cons settled batch, ?_⟩
        rw [List.countP_cons, aborts]

/-- **Where there is a batch, the turns go without trouble.** -/
theorem turns_of_batch (colored : Bool) (format : Format)
    (h : m.disk.Batch settings dir? paths results d') :
    ∃ m', turns colored settings dir? true format paths m =
      (.ok (results.countP Option.isNone), m') ∧ m'.disk = d' := by
  -- The files are those of the machine, but the turns also add to its record: the machine is left
  -- to vary, and only its files are tied to the batch.
  generalize start : m.disk = d at h
  induction h generalizing m with
  | nil => exact ⟨m, rfl, start⟩
  | @cons d d₁ d₂ path rest result results settled _ ih =>
    obtain ⟨m₁, first, after⟩ := turn_of_settles colored format (start ▸ settled)
    obtain ⟨m₂, later, last⟩ := ih after
    refine ⟨m₂, ?_, last⟩
    rw [turns_cons, first]
    simp only [later, Except.map, List.countP_cons, aborts]

/-- The exit status tells whether an outline has aborted. -/
theorem exitStatus_countP (results : List (Option Generation)) :
    exitStatus (results.countP Option.isNone) = if results.any Option.isNone then 1 else 0 := by
  have none_iff : results.countP Option.isNone = 0 ↔ ¬results.any Option.isNone = true := by
    simp only [List.countP_eq_zero, List.any_eq_true, not_exists, not_and]
  simp only [exitStatus, none_iff, ite_not]

/-- **Outlines that abort stay by themselves.** A run over a directory that does not ask goes
through the outlines there, from the first place to the last. If nothing but aborted outlines
stands in its way, the files after it are those of the batch: each outline that can be read to its
end when its turn comes has its stub and then its tests written, and one that aborts has nothing
written. No other place changes, and the exit status is 1 if there is an outline that aborts, and
0 otherwise. Where there is such a batch, nothing else stands in the way of the run. -/
theorem batch_of_run {arguments : List RawText} {dir : RawText}
    (h : read arguments = .ok (.generate dir dir? config? true format))
    (isDir : m.disk.isDirectory dir = true) (colored : Bool) :
    (∃ places : List (List RawText), m.found dir = places.map (OutlineFile.below dir) ∧
      places.Perm ((m.disk.filesBelow dir).filter fun place =>
        OutlineFile.isOutline (RawText.shown (OutlineFile.foundName dir place))) ∧
      places.Pairwise fun p q => p.map RawText.octets ≤ q.map RawText.octets) ∧
    (((run colored arguments : StateM Machine Nat).run m).1 ≠ failureStatus →
      ∃ settings results, Loads m config? settings ∧
        m.disk.Batch settings dir? (m.found dir) results
          ((run colored arguments : StateM Machine Nat).run m).2.disk ∧
        ((run colored arguments : StateM Machine Nat).run m).1 =
          (if results.any Option.isNone then 1 else 0) ∧
        ∀ place, (∀ g, some g ∈ results → ∀ a ∈ g.artifacts,
            m.disk.destination a.path ≠ place) →
          ((run colored arguments : StateM Machine Nat).run m).2.disk.root.shape? place =
            m.disk.root.shape? place) ∧
    ∀ settings results d', Loads m config? settings →
      m.disk.Batch settings dir? (m.found dir) results d' →
      ((run colored arguments : StateM Machine Nat).run m).1 =
          (if results.any Option.isNone then 1 else 0) ∧
        ((run colored arguments : StateM Machine Nat).run m).2.disk = d' := by
  have lists := lists_of_isDirectory isDir
  refine ⟨OutlineFile.exists_places m dir, fun fine => ?_,
    fun settings results d' loads batch => ?_⟩
  · -- A run that fails has the exit status 2, so this one has taken all its turns.
    rcases run_generate_missing h colored m with ⟨settings, -, loads, -⟩ | ⟨t, missing⟩
    · rw [run_generate h loads lists] at fine ⊢
      rcases taken : turns colored settings dir? true format (m.found dir) m with ⟨t | n, m'⟩
      · rw [taken] at fine
        exact absurd rfl fine
      · obtain ⟨results, batch, rfl⟩ := batch_of_turns taken
        exact ⟨settings, results, loads, batch, exitStatus_countP results,
          fun place away => batch.shape? away⟩
    · rw [missing] at fine
      exact absurd rfl fine
  · obtain ⟨m', taken, after⟩ := turns_of_batch colored format batch
    rw [run_generate h loads lists, taken]
    exact ⟨exitStatus_countP results, after⟩

/-- A working directory with an outline that aborts, for want of an arrow, and one that does
not. -/
def mixed : Machine where
  disk :=
    { root := .directory
        [("a.oln.py", .file (.text "\"\"\"\nCONTRACT | f\n")),
          ("b.oln.py", .file (.text "\"\"\"\nCONTRACT | f : int -> int\n"))]
      work := [] }
  input := []
  events := []

theorem batch_of_run_mixed : ∃ g d',
    read ["generate", ".", "--force"] = .ok (.generate Path.dot none none true .text) ∧
    mixed.disk.isDirectory Path.dot = true ∧ Loads mixed none .standard ∧
    mixed.disk.Batch .standard none (mixed.found Path.dot) [none, some g] d' ∧
    ((run false ["generate", ".", "--force"] : StateM Machine Nat).run mixed).1 = 1 ∧
    ((run false ["generate", ".", "--force"] : StateM Machine Nat).run mixed).2.disk = d' ∧
    d'.isFile "a.py" = false ∧ d'.content? "b.py" = some (.text g.stub.contents) := by
  have asked :
      read ["generate", ".", "--force"] = .ok (.generate Path.dot none none true .text) := by
    decide
  have isDir : mixed.disk.isDirectory Path.dot = true := by decide
  have found : mixed.found Path.dot = ["./a.oln.py", "./b.oln.py"] :=
    OutlineFile.found_of_pairwise [["a.oln.py"], ["b.oln.py"]] rfl (by decide)
  obtain ⟨g, d₁, d₂, yields, stub, tests, nothing, something⟩ : ∃ g d₁ d₂,
      mixed.disk.Yields .standard none "./b.oln.py" g ∧
      mixed.disk.write g.stub.path g.stub.contents = .ok d₁ ∧
      d₁.write g.tests.path g.tests.contents = .ok d₂ ∧ d₂.isFile "a.py" = false ∧
      d₂.content? "b.py" = some (.text g.stub.contents) :=
    ⟨_, _, _, ⟨_, _, _, _, rfl, rfl, rfl, rfl⟩, rfl, rfl, rfl, rfl⟩
  have batch : mixed.disk.Batch .standard none (mixed.found Path.dot) [none, some g] d₂ := by
    rw [found]
    exact .cons (.aborted ⟨_, _, _, rfl, rfl, rfl⟩) (.cons (.written yields stub tests) (.nil _))
  obtain ⟨-, -, complete⟩ := batch_of_run asked isDir false
  obtain ⟨status, files⟩ := complete .standard _ d₂ rfl batch
  exact ⟨g, d₂, asked, isDir, rfl, batch, status, files, nothing, something⟩

end CommandLine

end DesignRecipe

import DesignRecipe.Generation
import DesignRecipe.Proofs.OutlineFile

/-!
# Where the files made from outlines go

The files made from an outline go to the directory that it stands in. Their names are made of
the module, a mark and `.py`, and so is the name of the outline itself:

| the file is | its mark is |
|---|---|
| a stub | empty |
| a test file | `_tests` |
| an outline | `.oln` |

So two of all these files stand in one place exactly if their directories say the same and the
modules are the same once the marks are added (`DesignRecipe.Generation.same_called`). A mark
can just as well be the end of the name of a module: the stub of a module called `a_tests` goes
to where the test file of `a` goes, and the stub of a module called `a.oln` to where the outline
of `a` stands. These are the only two cases (`DesignRecipe.Generation.same_tests_stub` and
`DesignRecipe.Generation.same_stub_outline`).
-/

namespace DesignRecipe

/-- What is made from an outline, for the directory that the outline stands in. -/
def Machine.Makes (m : Machine) (settings : Settings) (path : RawText) (g : Generation) : Prop :=
  ((Generation.make settings none path : StateM Machine (Except Failure Generation)).run m).1 =
    .ok g

/-- The directory for what is made from an outline. -/
def Disk.outputDirectory (d : Disk) (path : RawText) : Option RawText → RawText
  | none => OutlineFile.ownDirectory path
  | some dir => if d.isDirectory dir then dir else Path.dot

/-- **What an outline yields**: what is made from what the file holds, if that can be read to its
end. -/
def Disk.Yields (d : Disk) (settings : Settings) (dir? : Option RawText) (path : RawText)
    (g : Generation) : Prop :=
  ∃ module backend text output, Generation.plan settings path = .ok (module, backend) ∧
    d.content? path = some (.text text) ∧ Outline.read settings.options text = .ok output ∧
    g = .ofOutput settings.template backend path module (d.outputDirectory path dir?) output

/-- **An outline aborts**: what the file holds cannot be read to its end. -/
def Disk.Aborts (d : Disk) (settings : Settings) (path : RawText) (a : Outline.Abort) : Prop :=
  ∃ module backend text, Generation.plan settings path = .ok (module, backend) ∧
    d.content? path = some (.text text) ∧ Outline.read settings.options text = .error a

namespace Generation

open OutlineFile

/-- What could be made from an outline with the path, whatever the outline held. -/
def IsFor (settings : Settings) (path : RawText) (g : Generation) : Prop :=
  ∃ module backend output, plan settings path = .ok (module, backend) ∧
    g = ofOutput settings.template backend path module (ownDirectory path) output

section Runs

variable {m : Machine} {d : Disk} {settings : Settings} {dir? : Option RawText} {path : RawText}
  {g : Generation}

theorem run_read (m : Machine) (options : Outline.Options) (path : RawText) :
    (OutlineFile.read options path : StateM Machine (Except Failure Outline.Output)).run m =
      (match m.disk.read path with
        | .error e => .error (.fileRead path e)
        | .ok text => (Outline.read options text).mapError .aborted, m) := by
  rw [OutlineFile.read, StateT.run_bind]
  change (match m.disk.read path with | .error e => _ | .ok text => _ : StateM Machine _).run m = _
  cases m.disk.read path <;> rfl

/-- What comes of making the files of an outline on a disk. -/
def made (settings : Settings) (dir? : Option RawText) (d : Disk) (path : RawText) :
    Except Failure Generation :=
  match plan settings path with
  | .error f => .error f
  | .ok (module, backend) =>
    match d.read path with
    | .error e => .error (.fileRead path e)
    | .ok text =>
      match Outline.read settings.options text with
      | .error a => .error (.aborted a)
      | .ok output =>
        .ok (ofOutput settings.template backend path module (d.outputDirectory path dir?) output)

/-- Making files leaves the machine as it is. -/
theorem run_make (m : Machine) (settings : Settings) (dir? : Option RawText) (path : RawText) :
    (make settings dir? path : StateM Machine (Except Failure Generation)).run m =
      (made settings dir? m.disk path, m) := by
  rw [make, made]
  rcases plan settings path with f | ⟨module, backend⟩
  · rfl
  · simp only [StateT.run_bind, run_read]
    cases m.disk.read path with
    | error => rfl
    | ok text =>
      dsimp only
      cases Outline.read settings.options text with
      | error => rfl
      | ok output => cases dir? <;> rfl

/-- **What is made is settled by the path and by what the file there holds.** -/
theorem made_eq_ok : made settings dir? d path = .ok g ↔ d.Yields settings dir? path g := by
  rw [made]
  constructor
  · intro h
    rcases planned : plan settings path with f | ⟨module, backend⟩
    · simp [planned] at h
    · cases content : d.read path with
      | error => simp [planned, content] at h
      | ok text =>
        cases read : Outline.read settings.options text with
        | error => simp [planned, content, read] at h
        | ok output =>
          simp only [planned, content, read, Except.ok.injEq] at h
          exact ⟨_, _, text, output, planned, Disk.read_eq_ok.mp content, read, h.symm⟩
  · rintro ⟨module, backend, text, output, planned, content, read, rfl⟩
    simp [planned, Disk.read_eq_ok.mpr content, read]

/-- **How a plan turns out**: there is a module and a backend, or else what is missing is named. -/
theorem plan_cases (settings : Settings) (path : RawText) :
    (∃ module backend, moduleName path = .ok module ∧
      plan settings path = .ok (module, backend)) ∨
    (∃ module, moduleName path = .ok module ∧
      plan settings path = .error (.unknownBackend settings.backend)) ∨
    (∀ module, moduleName path ≠ .ok module) ∧
      plan settings path = .error (.invalidOutlinePath path) := by
  have known : (∃ backend, settings.backend? = .ok backend) ∨
      settings.backend? = .error (.unknownBackend settings.backend) := by
    rw [Settings.backend?]
    split
    · exact .inl ⟨_, rfl⟩
    · exact .inr rfl
  rw [plan]
  rcases moduleName_cases path with ⟨module, named⟩ | named
  · rcases known with ⟨backend, known⟩ | known
    · exact .inl ⟨module, backend, named, by rw [named, known]; rfl⟩
    · exact .inr (.inl ⟨module, named, by rw [named, known]; rfl⟩)
  · exact .inr (.inr ⟨fun module => by simp [named], by rw [named]; rfl⟩)

/-- No outline is read where the plan fails. -/
theorem plan_ne_aborted (settings : Settings) (path : RawText) (a : Outline.Abort) :
    plan settings path ≠ .error (.aborted a) := by
  rcases plan_cases settings path with ⟨_, _, _, h⟩ | ⟨_, _, h⟩ | ⟨_, h⟩ <;> simp [h]

/-- Nothing is made of a path without a module. -/
theorem made_of_unnamed (unnamed : ∀ module, moduleName path ≠ .ok module) :
    made settings dir? d path = .error (.invalidOutlinePath path) := by
  rcases plan_cases settings path with ⟨module, _, named, _⟩ | ⟨module, named, _⟩ | ⟨_, planned⟩
  · exact absurd named (unnamed module)
  · exact absurd named (unnamed module)
  · rw [made, planned]

/-- **Why nothing is made of an outline**: it has no module, there is no such backend, or the file
cannot be read, or not to the end of the outline. -/
theorem cases_of_made_eq_error {f : Failure} (h : made settings dir? d path = .error f) :
    (f = .invalidOutlinePath path ∧ ∀ module, moduleName path ≠ .ok module) ∨
    (∃ module, moduleName path = .ok module) ∧
      (f = .unknownBackend settings.backend ∨ (∃ e, f = .fileRead path e) ∨
        ∃ a, f = .aborted a) := by
  rw [made] at h
  rcases plan_cases settings path with
    ⟨module, _, named, planned⟩ | ⟨module, named, planned⟩ | ⟨unnamed, planned⟩
  · refine .inr ⟨⟨module, named⟩, .inr ?_⟩
    simp only [planned] at h
    split at h
    · exact .inl ⟨_, (Except.error.inj h).symm⟩
    · split at h
      · exact .inr ⟨_, (Except.error.inj h).symm⟩
      · cases h
  · rw [planned] at h
    exact .inr ⟨⟨module, named⟩, .inl (Except.error.inj h).symm⟩
  · rw [planned] at h
    exact .inl ⟨(Except.error.inj h).symm, unnamed⟩

/-- **Nothing is made of an outline that stops its reading.** -/
theorem made_eq_aborted {a : Outline.Abort} :
    made settings dir? d path = .error (.aborted a) ↔ d.Aborts settings path a := by
  rw [made]
  constructor
  · intro h
    rcases planned : plan settings path with f | ⟨module, backend⟩
    · simp only [planned, Except.error.injEq] at h
      exact absurd (h ▸ planned) (plan_ne_aborted settings path a)
    · cases content : d.read path with
      | error => simp [planned, content] at h
      | ok text =>
        cases read : Outline.read settings.options text with
        | ok => simp [planned, content, read] at h
        | error =>
          simp only [planned, content, read, Except.error.injEq, Failure.aborted.injEq] at h
          exact ⟨_, _, text, planned, Disk.read_eq_ok.mp content, h ▸ read⟩
  · rintro ⟨module, backend, text, planned, content, read⟩
    simp [planned, Disk.read_eq_ok.mpr content, read]

/-- What is made beside the outline. -/
theorem makes_iff :
    m.Makes settings path g ↔ ∃ module backend text output,
      plan settings path = .ok (module, backend) ∧ m.disk.content? path = some (.text text) ∧
        Outline.read settings.options text = .ok output ∧
        g = ofOutput settings.template backend path module (ownDirectory path) output := by
  rw [Machine.Makes, run_make, made_eq_ok]
  rfl

/-- What is made is what could be made. -/
theorem isFor_of_makes (h : m.Makes settings path g) : g.IsFor settings path := by
  obtain ⟨module, backend, -, output, planned, -, -, made⟩ := makes_iff.mp h
  exact ⟨module, backend, output, planned, made⟩

/-- **What is made stays the same as long as the outline does.** -/
theorem makes_congr {m' : Machine} (h : m.disk.content? path = m'.disk.content? path) :
    m.Makes settings path g ↔ m'.Makes settings path g := by
  rw [makes_iff, makes_iff, h]

end Runs

/-! ### Names with marks -/

/-- What a file for a module can be. -/
inductive Mark
  | stub
  | tests
  | outline
deriving DecidableEq, Repr

/-- What the name of a file has between the module and the suffix of stubs. -/
def Mark.text : Mark → Text
  | .stub => []
  | .tests => ['_', 't', 'e', 's', 't', 's']
  | .outline => ['.', 'o', 'l', 'n']

theorem Mark.append_stub (module : RawText) : module ++ stub.text = module := List.append_nil module

theorem Mark.slash_notMem (mark : Mark) : Path.slash ∉ RawText.ofText mark.text := by
  cases mark <;> decide

/-- The name of a file for a module. -/
def called (module : RawText) (mark : Mark) : RawText :=
  module ++ mark.text ++ Backend.python.stubSuffix

theorem called_outline (module : RawText) : called module .outline = module ++ ending := by
  rw [called, List.append_assoc]
  rfl

theorem called_inj {s t : RawText} {a b : Mark} :
    called s a = called t b ↔ s ++ a.text = t ++ b.text :=
  List.append_left_inj _

/-- With the name of an outline, every marked name of its module is a name. -/
theorem isName_called {module : RawText} (h : Path.IsName (module ++ ending)) (mark : Mark) :
    Path.IsName (called module mark) := by
  have slash := h.slash_notMem
  have suffix : Path.slash ∉ RawText.ofText Backend.python.stubSuffix := by decide
  refine .of_length ?_ ?_
  · simp [called, Backend.stubSuffix]
    omega
  · simp_all [called, mark.slash_notMem]

/-! ### The paths of what is made -/

variable {settings : Settings} {path path' : RawText} {g g' : Generation}

/-- **Where the files go.** -/
theorem IsFor.paths (h : g.IsFor settings path) :
    g.module ≠ [] ∧ Path.fileName? path = some (RawText.ofText g.module ++ ending) ∧
      g.stub.path = Path.join (ownDirectory path) (called g.module .stub) ∧
      g.tests.path = Path.join (ownDirectory path) (called g.module .tests) := by
  obtain ⟨module, backend, output, planned, rfl⟩ := h
  cases backend
  cases named : moduleName path with
  | error => simp [plan, named, bind, Except.bind] at planned
  | ok module' =>
    obtain rfl : module' = module := by
      cases found : settings.backend? <;>
        simp_all [plan, bind, Except.bind, pure, Except.pure]
    obtain ⟨name, ne_nil⟩ := moduleName_eq_ok.mp named
    refine ⟨ne_nil, name, ?_, ?_⟩
    · rw [called, Mark.append_stub, ofOutput, RawText.ofText_append]
    · rw [called, List.append_assoc, ← RawText.ofText_append, ← RawText.ofText_append]
      rfl

/-- **An outline is extended by another with a mark**: both stand in one directory, and the
module of the second is that of the first with the mark. -/
def Extends (mark : Mark) (path path' : RawText) : Prop :=
  Path.Same (ownDirectory path) (ownDirectory path') ∧
    ∃ module : RawText, Path.fileName? path = some (module ++ ending) ∧
      Path.fileName? path' = some (module ++ mark.text ++ ending)

/-- A short name extends none. -/
theorem not_extends_of_length {mark : Mark} {name : RawText}
    (h : Path.fileName? path' = some name)
    (short : name.length < mark.text.length + ending.length) : ¬Extends mark path path' := by
  rintro ⟨-, module, -, extended⟩
  obtain rfl := Option.some.inj (h.symm.trans extended)
  rw [List.length_append, List.length_append, RawText.length_ofText, RawText.length_ofText] at short
  omega

section Marked

variable {s t : RawText} {a b : Mark} (h : Path.fileName? path = some (s ++ ending))
include h

/-- An outline is a file with a marked name, too. -/
theorem same_called_outline :
    Path.Same path (Path.join (ownDirectory path) (called s .outline)) :=
  called_outline s ▸ (same_join_ownDirectory h).2

/-- **When two files with marked names beside outlines are one.** -/
theorem same_called (h' : Path.fileName? path' = some (t ++ ending)) :
    Path.Same (Path.join (ownDirectory path) (called s a))
        (Path.join (ownDirectory path') (called t b)) ↔
      Path.Same (ownDirectory path) (ownDirectory path') ∧ s ++ a.text = t ++ b.text := by
  rw [Path.same_join (isName_called (same_join_ownDirectory h).1 a)
    (isName_called (same_join_ownDirectory h').1 b), called_inj]

/-- Files of two outlines with one mark are one only if the outlines are. -/
theorem same_of_same_called (h' : Path.fileName? path' = some (t ++ ending))
    (same : Path.Same (Path.join (ownDirectory path) (called s a))
      (Path.join (ownDirectory path') (called t a))) : Path.Same path path' := by
  obtain ⟨dirs, e⟩ := (same_called h h').mp same
  obtain rfl := List.append_cancel_right e
  have outlines := (same_called h h' (a := .outline)).mpr ⟨dirs, rfl⟩
  exact ((same_called_outline h).trans outlines).trans (same_called_outline h').symm

end Marked

/-- Stub and test file of an outline are two files. -/
theorem not_same_stub_tests (h : g.IsFor settings path) :
    ¬Path.Same g.stub.path g.tests.path := by
  obtain ⟨-, name, stub, tests⟩ := h.paths
  rw [stub, tests, same_called name name, List.append_cancel_left_eq]
  exact fun same => absurd same.2 (by decide)

/-- **Stubs go to one place only if their outlines say the same.** -/
theorem same_of_same_stub (h : g.IsFor settings path) (h' : g'.IsFor settings path')
    (same : Path.Same g.stub.path g'.stub.path) : Path.Same path path' := by
  obtain ⟨-, name, stub, -⟩ := h.paths
  obtain ⟨-, name', stub', -⟩ := h'.paths
  exact same_of_same_called name name' (stub ▸ stub' ▸ same)

/-- **Test files go to one place only if their outlines say the same.** -/
theorem same_of_same_tests (h : g.IsFor settings path) (h' : g'.IsFor settings path')
    (same : Path.Same g.tests.path g'.tests.path) : Path.Same path path' := by
  obtain ⟨-, name, -, tests⟩ := h.paths
  obtain ⟨-, name', -, tests'⟩ := h'.paths
  exact same_of_same_called name name' (tests ▸ tests' ▸ same)

/-- **When a test file goes to where a stub goes.** -/
theorem same_tests_stub (h : g.IsFor settings path) (h' : g'.IsFor settings path') :
    Path.Same g.tests.path g'.stub.path ↔ Extends .tests path path' := by
  obtain ⟨-, name, -, tests⟩ := h.paths
  obtain ⟨-, name', stub, -⟩ := h'.paths
  rw [tests, stub, same_called name name', Mark.append_stub]
  refine and_congr_right fun _ => ⟨fun e => ⟨_, name, e ▸ name'⟩, ?_⟩
  rintro ⟨module, first, second⟩
  obtain rfl := List.append_cancel_right (Option.some.inj (name.symm.trans first))
  exact List.append_cancel_right (Option.some.inj (second.symm.trans name'))

/-- **When a stub goes to where an outline stands.** -/
theorem same_stub_outline (h : g.IsFor settings path) {s : RawText}
    (h' : Path.fileName? path' = some (s ++ ending)) :
    Path.Same g.stub.path path' ↔ Extends .outline path' path := by
  obtain ⟨-, name, stub, -⟩ := h.paths
  have outline := same_called_outline h'
  constructor
  · intro same
    rw [stub] at same
    obtain ⟨dirs, e⟩ := (same_called name h').mp (same.trans outline)
    rw [Mark.append_stub] at e
    exact ⟨dirs.symm, s, h', e ▸ name⟩
  · rintro ⟨dirs, module, first, second⟩
    obtain rfl := List.append_cancel_right (Option.some.inj (h'.symm.trans first))
    have e := List.append_cancel_right (Option.some.inj (name.symm.trans second))
    rw [stub]
    refine ((same_called name h').mpr ⟨dirs.symm, ?_⟩).trans outline.symm
    rw [Mark.append_stub, e]

/-- **No test file goes to where an outline stands.** -/
theorem not_same_tests_outline (h : g.IsFor settings path) {s : RawText}
    (h' : Path.fileName? path' = some (s ++ ending)) : ¬Path.Same g.tests.path path' := by
  obtain ⟨-, name, -, tests⟩ := h.paths
  intro same
  have same := same.trans (same_called_outline h')
  rw [tests, same_called name h'] at same
  -- the marks do not end alike
  simpa [Mark.text, RawText.ofText] using congrArg List.getLast? same.2

/-! ### All files together -/

variable {dir : RawText} {place place' : List RawText} {stem stem' : RawText}

theorem forall_mem_artifacts {P : Artifact → Prop} :
    (∀ a ∈ g.artifacts, P a) ↔ P g.stub ∧ P g.tests := by
  simp [Generation.artifacts]

/-- The files made from an outline that is found lie below the directory. -/
theorem liesBelow_artifacts (found : Found dir path place stem) (h : g.IsFor settings path) :
    ∀ a ∈ g.artifacts, LiesBelow dir a.path := by
  obtain ⟨-, name, stub, tests⟩ := h.paths
  have isName := (same_join_ownDirectory name).1
  rw [forall_mem_artifacts, stub, tests]
  exact ⟨found.liesBelow_join (isName_called isName _),
    found.liesBelow_join (isName_called isName _)⟩

/-- Two files made from one outline are two. -/
theorem same_artifacts (h : g.IsFor settings path) :
    ∀ a ∈ g.artifacts, ∀ b ∈ g.artifacts, Path.Same a.path b.path → a = b := by
  have apart := not_same_stub_tests h
  rw [forall_mem_artifacts, forall_mem_artifacts, forall_mem_artifacts]
  exact ⟨⟨fun _ => rfl, fun same => absurd same apart⟩,
    fun same => absurd same.symm apart, fun _ => rfl⟩

/-- **Files made from two outlines are two**, unless the module of one is that of the other
with the mark of test files. -/
theorem not_same_artifacts (found : Found dir path place stem)
    (found' : Found dir path' place' stem') (ne : path ≠ path') (h : g.IsFor settings path)
    (h' : g'.IsFor settings path') (apart : ¬Extends .tests path path')
    (apart' : ¬Extends .tests path' path) :
    ∀ a ∈ g.artifacts, ∀ b ∈ g'.artifacts, ¬Path.Same a.path b.path := by
  have distinct : ¬Path.Same path path' := fun same => ne (found.eq_of_same found' same)
  simp only [forall_mem_artifacts]
  exact ⟨⟨mt (same_of_same_stub h h') distinct,
      mt (fun same => (same_tests_stub h' h).mp same.symm) apart'⟩,
    mt (same_tests_stub h h').mp apart, mt (same_of_same_tests h h') distinct⟩

/-- **A file made from an outline is no outline**, unless the module of the one is that of the
other with the mark of outlines. -/
theorem not_same_artifacts_outline (h : g.IsFor settings path)
    (h' : Path.fileName? path' = some (stem ++ ending)) (apart : ¬Extends .outline path' path) :
    ∀ a ∈ g.artifacts, ¬Path.Same a.path path' := by
  rw [forall_mem_artifacts]
  exact ⟨mt (same_stub_outline h h').mp apart, not_same_tests_outline h h'⟩

end Generation

end DesignRecipe

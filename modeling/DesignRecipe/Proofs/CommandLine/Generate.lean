import DesignRecipe.Proofs.CommandLine.Turn
import DesignRecipe.Proofs.Machine

/-!
# What a run over a directory overwrites

A run writes nothing but the files made from the outlines that it has found. So whatever all
these writes leave alone, the run leaves alone (`DesignRecipe.CommandLine.keeps_generateAll`).

What the writes leave alone depends on what they write, and this on what the outlines hold
when their turn comes. An outline that no write reaches holds then what it held at the start,
so what is made from it is known from the start, and the invariant of the run is about both,
the outline and the files made from it.
-/

namespace DesignRecipe

/-- A property of the files that a file can be written without breaking. -/
def Artifact.Spares (I : Disk → Prop) (a : Artifact) : Prop :=
  ∀ d d', I d → d.write a.path a.contents = .ok d' → I d'

namespace CommandLine

variable {I : Disk → Prop} {colored force : Bool} {format : Format} {settings : Settings}
  {config? : Option RawText} {m : Machine} {dir path path' : RawText}

/-! ### The files that a run writes -/

theorem keeps_mayWrite (force : Bool) (path : RawText) : Keeps I (mayWrite force path) := by
  rw [mayWrite]
  split
  · exact .pure _
  · refine .bind (.occupied path) fun there => ?_
    split
    · exact .bind (.ask _) fun _ => .pure _
    · exact .pure _

theorem keeps_showDiagnostics (path : RawText) (ds : List Diagnostic) :
    Keeps I (showDiagnostics colored format path ds) := .err _

theorem keeps_writeArtifacts {artifacts : List Artifact} (h : ∀ a ∈ artifacts, a.Spares I) :
    Keeps I (writeArtifacts force artifacts) := by
  induction artifacts with
  | nil => exact .pure _
  | cons a rest ih =>
    have hrest := ih fun b hb => h b (List.mem_cons_of_mem _ hb)
    rw [writeArtifacts]
    refine .bind (keeps_mayWrite force a.path) fun allowed => ?_
    split
    · exact .pure _
    · exact hrest
    · refine .bind (.bind (.write (h a List.mem_cons_self)) fun _ => .pure _) fun result => ?_
      split
      · exact .pure _
      · exact hrest

theorem leads_make (settings : Settings) (path : RawText) :
    Leads (fun m => I m.disk)
      (Generation.make settings none path : StateM Machine (Except Failure Generation))
      fun result m => I m.disk ∧ ∀ g, result = .ok g → m.Makes settings path g := by
  intro m hm
  have unchanged := congrArg Prod.snd (Generation.run_make m settings none path)
  rw [unchanged]
  exact ⟨hm, fun g made => made⟩

/-- **What every file that a run makes spares is kept by the run.** -/
theorem keeps_generateAll {paths : List RawText}
    (h : ∀ path ∈ paths, ∀ (m : Machine) (g : Generation), I m.disk → m.Makes settings path g →
      ∀ a ∈ g.artifacts, a.Spares I) :
    Keeps I (generateAll colored settings none force format paths) := by
  induction paths with
  | nil => exact .pure _
  | cons path rest ih =>
    have hrest := ih fun p hp => h p (List.mem_cons_of_mem _ hp)
    rw [generateAll]
    refine Leads.bind (leads_make settings path) fun result => ?_
    split
    next abort =>
      have shown : Keeps I (showDiagnostics colored format path abort.diagnostics) :=
        keeps_showDiagnostics _ _
      exact Leads.weaken (Keeps.bind shown fun _ => .bind hrest fun _ => .pure _) fun m hm => hm.1
    next => exact Leads.weaken (Keeps.pure _) fun m hm => hm.1
    next g =>
      have spares : ∀ m : Machine, (I m.disk ∧ ∀ g', (.ok g : Except Failure Generation) =
          .ok g' → m.Makes settings path g') → ∀ a ∈ g.artifacts, a.Spares I :=
        fun m hm => h path List.mem_cons_self m g hm.1 (hm.2 g rfl)
      refine Leads.suppose spares fun spares => Leads.weaken ?_ fun m hm => hm.1
      refine Keeps.bind (keeps_showDiagnostics _ _) fun _ =>
        .bind (keeps_writeArtifacts spares) fun written => ?_
      split
      · exact .pure _
      · exact hrest

/-! ### Runs over a directory -/

/-- The machine after a run over a directory, for the directories of the outlines. -/
def generated (m : Machine) (colored : Bool) (config? : Option RawText) (dir : RawText)
    (force : Bool) (format : Format) : Machine :=
  ((perform colored (.generate dir none config? force format) :
    StateM Machine (Except Trouble Nat)).run m).2

/-- A run over a directory is a run over the outlines that are found there. -/
theorem generated_eq (isDir : m.disk.isDirectory dir = true)
    (loaded : ((Settings.load config? : StateM Machine (Except Failure Settings)).run m).1 =
      .ok settings) :
    generated m colored config? dir force format =
      ((generateAll colored settings none force format (m.found dir) :
        StateM Machine (Except Trouble Nat)).run m).2 := by
  rw [generated, perform, run_overOutlines _ loaded (lists_of_isDirectory isDir)]

/-! ### What the outlines keep -/

open Generation OutlineFile

variable {g : Generation}

/-- A write leaves alone what else lies below the directory. -/
theorem content?_of_write_below {d d' : Disk} {x y : RawText} {s : Text} (hx : LiesBelow dir x)
    (hy : LiesBelow dir y) (apart : ¬Path.Same y x) (h : d.write y s = .ok d') :
    d'.content? x = d.content? x :=
  Disk.content?_of_write_of_ne h fun e => apart (hx.same hy e).symm

/-- **An outline keeps clear of others**: the module of none of them is its own with a mark,
and its own is not that of another with the mark of test files. -/
def KeepsClear (paths : List RawText) (path : RawText) : Prop :=
  ∀ other ∈ paths, ¬Extends .tests path other ∧ ¬Extends .tests other path ∧
    ¬Extends .outline path other

section Directory

variable (named : m.disk.root.WellNamed) (isDir : m.disk.isDirectory dir = true)
  (loaded : ((Settings.load config? : StateM Machine (Except Failure Settings)).run m).1 =
    .ok settings)
include named isDir loaded

/-- **An outline is left as it was**, unless the stub of another takes its place. -/
theorem content?_outline (hp : path ∈ m.found dir)
    (apart : ∀ other ∈ m.found dir, ¬Extends .outline path other) :
    (generated m colored config? dir force format).disk.content? path =
      m.disk.content? path := by
  obtain ⟨place, stem, found⟩ := exists_found named isDir hp
  rw [generated_eq isDir loaded]
  refine keeps_generateAll (I := fun d => d.content? path = m.disk.content? path) ?_ m rfl
  intro other ho σ g _ makes a ha d d' before written
  obtain ⟨_, _, foundOther⟩ := exists_found named isDir ho
  have isFor := isFor_of_makes makes
  have away := not_same_artifacts_outline isFor found.fileName? (apart other ho) a ha
  exact (content?_of_write_below found.liesBelow (liesBelow_artifacts foundOther isFor a ha) away
    written).trans before

/-- **The files made from an outline are left as they were made, or as they were**, if the
outline keeps clear of others. -/
theorem content?_artifacts (hp : path ∈ m.found dir) (clear : KeepsClear (m.found dir) path)
    (makes : m.Makes settings path g) : ∀ a ∈ g.artifacts,
    (generated m colored config? dir force format).disk.content? a.path =
        some (.text a.contents) ∨
      (generated m colored config? dir force format).disk.content? a.path =
        m.disk.content? a.path := by
  intro a ha
  obtain ⟨place, stem, found⟩ := exists_found named isDir hp
  have isFor := isFor_of_makes makes
  have below := liesBelow_artifacts found isFor a ha
  rw [generated_eq isDir loaded]
  -- the outline has to be kept, too: what is made from it later is made from what it holds then
  refine (keeps_generateAll (I := fun d => d.content? path = m.disk.content? path ∧
    (d.content? a.path = some (.text a.contents) ∨ d.content? a.path = m.disk.content? a.path))
    ?_ m ⟨rfl, .inr rfl⟩).2
  rintro other ho σ g' ⟨kept, -⟩ makes' b hb d d' ⟨before, held⟩ written
  obtain ⟨_, _, foundOther⟩ := exists_found named isDir ho
  have isFor' := isFor_of_makes makes'
  have below' := liesBelow_artifacts foundOther isFor' b hb
  have outline := not_same_artifacts_outline isFor' found.fileName? (clear other ho).2.2 b hb
  refine ⟨(content?_of_write_below found.liesBelow below' outline written).trans before, ?_⟩
  by_cases one : Path.Same b.path a.path
  · obtain rfl : other = path := by
      by_contra ne
      exact not_same_artifacts foundOther found ne isFor' isFor (clear other ho).2.1
        (clear other ho).1 b hb a ha one
    obtain rfl : g' = g :=
      Except.ok.inj (((makes_congr kept).mp makes').symm.trans makes)
    obtain rfl := same_artifacts isFor b hb a ha one
    exact .inl (Disk.content?_of_write written)
  · rw [content?_of_write_below below below' one written]
    exact held

end Directory

/-- **Files made from the outlines of a directory do not collide**, but for two cases. For
any two outlines that are found, and whatever they hold:

* the stub and the test file of one go to two places;
* their stubs go to two places, and so do their test files;
* the test file of one goes to where the stub of the other goes exactly if the other's module
  is its own with the mark of test files, in the same directory;
* no test file goes to where an outline stands, and a stub does exactly if its module is that
  of the outline with the mark of outlines, in the same directory.

So a run over the directory leaves an outline that keeps clear of others as it was, and after
it the files made from that outline are what was made, or what they were before. -/
theorem artifacts_apart (named : m.disk.root.WellNamed) (isDir : m.disk.isDirectory dir = true) :
    (∀ path ∈ m.found dir, ∀ g : Generation, g.IsFor settings path →
      ¬Path.Same g.stub.path g.tests.path ∧
        (∀ other ∈ m.found dir, ¬Path.Same g.tests.path other ∧
          (Path.Same g.stub.path other ↔ Extends .outline other path)) ∧
        ∀ other ∈ m.found dir, path ≠ other → ∀ h : Generation, h.IsFor settings other →
          ¬Path.Same g.stub.path h.stub.path ∧ ¬Path.Same g.tests.path h.tests.path ∧
            (Path.Same g.tests.path h.stub.path ↔ Extends .tests path other)) ∧
      ∀ config?, ((Settings.load config? : StateM Machine (Except Failure Settings)).run m).1 =
          .ok settings →
        ∀ colored force format, ∀ path ∈ m.found dir, KeepsClear (m.found dir) path →
          (generated m colored config? dir force format).disk.content? path =
              m.disk.content? path ∧
            ∀ g, m.Makes settings path g → ∀ a ∈ g.artifacts,
              (generated m colored config? dir force format).disk.content? a.path =
                  some (.text a.contents) ∨
                (generated m colored config? dir force format).disk.content? a.path =
                  m.disk.content? a.path := by
  refine ⟨fun path hp g isFor => ⟨not_same_stub_tests isFor, ?_, ?_⟩, ?_⟩
  · intro other ho
    obtain ⟨_, _, found⟩ := exists_found named isDir ho
    exact ⟨not_same_tests_outline isFor found.fileName?,
      same_stub_outline isFor found.fileName?⟩
  · intro other ho ne h isFor'
    obtain ⟨_, _, found⟩ := exists_found named isDir hp
    obtain ⟨_, _, found'⟩ := exists_found named isDir ho
    have distinct : ¬Path.Same path other := fun same => ne (found.eq_of_same found' same)
    exact ⟨mt (same_of_same_stub isFor isFor') distinct,
      mt (same_of_same_tests isFor isFor') distinct, same_tests_stub isFor isFor'⟩
  · intro config? loaded colored force format path hp clear
    exact ⟨content?_outline named isDir loaded hp fun other ho => (clear other ho).2.2,
      fun g makes => content?_artifacts named isDir loaded hp clear makes⟩

/-- A working directory with outlines in it, each with one contract. -/
def shelf (modules : List Text) : Machine where
  disk :=
    { root := .directory (modules.map fun module =>
        (RawText.ofText (module ++ ending), .file (.text "\"\"\"\nCONTRACT | f : int -> int\n")))
      work := [] }
  input := []
  events := []

/-- The path of an outline on the shelf. -/
def shelved (module : Text) : RawText := RawText.ofText (['.', '/'] ++ module ++ ending)

theorem artifacts_apart_sample :
    ∃ path ∈ (shelf [['a'], ['b']]).found Path.dot, ∃ other ∈ (shelf [['a'], ['b']]).found Path.dot,
      ∃ g h : Generation, path ≠ other ∧ (shelf [['a'], ['b']]).Makes .standard path g ∧
        (shelf [['a'], ['b']]).Makes .standard other h ∧ ¬Path.Same g.tests.path h.stub.path ∧
        (generated (shelf [['a'], ['b']]) false none Path.dot true .text).disk.content? path =
          (shelf [['a'], ['b']]).disk.content? path ∧
        ∀ a ∈ g.artifacts,
          (generated (shelf [['a'], ['b']]) false none Path.dot true .text).disk.content? a.path =
              some (.text a.contents) ∨
            (generated (shelf [['a'], ['b']]) false none Path.dot true .text).disk.content? a.path =
              (shelf [['a'], ['b']]).disk.content? a.path := by
  obtain ⟨apart, run⟩ :=
    @artifacts_apart .standard (shelf [['a'], ['b']]) Path.dot (by decide) (by decide)
  have first : shelved ['a'] ∈ (shelf [['a'], ['b']]).found Path.dot := mem_found.mpr (by decide)
  have second : shelved ['b'] ∈ (shelf [['a'], ['b']]).found Path.dot := mem_found.mpr (by decide)
  have clear : KeepsClear ((shelf [['a'], ['b']]).found Path.dot) (shelved ['a']) := by
    intro other ho
    obtain ⟨names, listed, -, rfl⟩ := mem_found.mp ho
    have short : ∀ names ∈ (shelf [['a'], ['b']]).disk.filesBelow Path.dot,
        (Path.fileName? (below Path.dot names)).map List.length = some 8 := by decide
    obtain ⟨name, called, length⟩ := Option.map_eq_some_iff.mp (short names listed)
    exact ⟨not_extends_of_length called (by rw [length]; decide),
      not_extends_of_length (h := rfl) (by decide),
      not_extends_of_length called (by rw [length]; decide)⟩
  have makes : ∃ g, (shelf [['a'], ['b']]).Makes .standard (shelved ['a']) g :=
    ⟨_, makes_iff.mpr ⟨_, _, _, _, rfl, rfl, rfl, rfl⟩⟩
  have makes' : ∃ h, (shelf [['a'], ['b']]).Makes .standard (shelved ['b']) h :=
    ⟨_, makes_iff.mpr ⟨_, _, _, _, rfl, rfl, rfl, rfl⟩⟩
  obtain ⟨g, hg⟩ := makes
  obtain ⟨h, hh⟩ := makes'
  obtain ⟨-, -, others⟩ := apart _ first g (isFor_of_makes hg)
  obtain ⟨-, -, collide⟩ := others _ second (by decide) h (isFor_of_makes hh)
  obtain ⟨outline, files⟩ := run none rfl false true .text _ first clear
  refine ⟨_, first, _, second, g, h, by decide, hg, hh, ?_, outline, files g hg⟩
  rw [collide]
  exact not_extends_of_length (h := rfl) (by decide)

/-- **A test file and a stub of two outlines can go to one place, and a stub to where an
outline stands.** -/
theorem artifacts_collide :
    (¬∀ (m : Machine) (dir : RawText) (settings : Settings) (path other : RawText)
        (g h : Generation),
      m.disk.root.WellNamed → m.disk.isDirectory dir = true → path ∈ m.found dir →
        other ∈ m.found dir → path ≠ other → m.Makes settings path g →
          m.Makes settings other h → g.tests.path ≠ h.stub.path) ∧
    ¬∀ (m : Machine) (dir : RawText) (settings : Settings) (path other : RawText) (g : Generation),
      m.disk.root.WellNamed → m.disk.isDirectory dir = true → path ∈ m.found dir →
        other ∈ m.found dir → m.Makes settings path g → g.stub.path ≠ other := by
  constructor
  · intro apart
    exact apart (shelf [['a'], ['a'] ++ Mark.tests.text]) Path.dot .standard (shelved ['a'])
      (shelved (['a'] ++ Mark.tests.text)) _ _ (by decide) (by decide) (mem_found.mpr (by decide))
      (mem_found.mpr (by decide)) (by decide) (makes_iff.mpr ⟨_, _, _, _, rfl, rfl, rfl, rfl⟩)
      (makes_iff.mpr ⟨_, _, _, _, rfl, rfl, rfl, rfl⟩) rfl
  · intro apart
    exact apart (shelf [['a'] ++ Mark.outline.text, ['a']]) Path.dot .standard
      (shelved (['a'] ++ Mark.outline.text)) (shelved ['a']) _ (by decide) (by decide)
      (mem_found.mpr (by decide)) (mem_found.mpr (by decide))
      (makes_iff.mpr ⟨_, _, _, _, rfl, rfl, rfl, rfl⟩) rfl

end CommandLine

end DesignRecipe

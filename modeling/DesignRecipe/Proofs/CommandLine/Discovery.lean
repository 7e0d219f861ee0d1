import DesignRecipe.Proofs.CommandLine.Batch
import DesignRecipe.Proofs.Machine

/-!
# Outlines that are found and rejected

A run over a directory makes files of the outlines that it finds there. They are found by the end of
their names alone, as far as the names can be shown. But a module is what stands in front of that
end, and it has to be a text and not an empty one:

| the name of the file | is called |
|---|---|
| is the ending alone | `DesignRecipe.OutlineFile.Bare` |
| is no text | `DesignRecipe.OutlineFile.Garbled` |

Such a file is found and then rejected. These are the only ways in which finding and naming
disagree: every other outline that is found has a module. A run over a directory stops at the first
of these names that it comes to, what has been made of the outlines before stays where it is, and no
other file that is found stops the run for its name.
-/

namespace DesignRecipe

namespace OutlineFile

/-- **A bare name**: the ending of outlines, and nothing in front of it. -/
def Bare (path : RawText) : Prop := Path.fileName? path = some (RawText.ofText ending)

/-- **A garbled name**: one that is no text. -/
def Garbled (path : RawText) : Prop :=
  ∃ name, Path.fileName? path = some name ∧ RawText.text? name = none

/-- A bare name is the name of no module, and neither is a garbled one. -/
theorem moduleName_ne_ok {path : RawText} (h : Bare path ∨ Garbled path) (module : Text) :
    moduleName path ≠ .ok module := by
  rw [Ne, moduleName_eq_ok]
  rintro ⟨named, nonempty⟩
  rcases h with bare | ⟨name, garbled, noText⟩
  · have same := Option.some.inj (bare.symm.trans named)
    rw [← RawText.ofText_append, RawText.ofText_inj] at same
    exact nonempty (List.append_cancel_right (same.symm.trans (List.nil_append _).symm))
  · rw [← RawText.ofText_append, garbled, Option.some_inj] at named
    rw [named, RawText.text?_ofText] at noText
    cases noText

/-- **The outlines that are found have modules**, bare and garbled names aside. -/
theorem exists_moduleName_iff {m : Machine} {dir path : RawText} (named : m.disk.root.WellNamed)
    (isDir : m.disk.isDirectory dir = true) (h : path ∈ m.found dir) :
    (∃ module, moduleName path = .ok module) ↔ ¬(Bare path ∨ Garbled path) := by
  constructor
  · rintro ⟨module, accepted⟩ rejected
    exact moduleName_ne_ok rejected module accepted
  · intro proper
    obtain ⟨bare, garbled⟩ := not_or.mp proper
    obtain ⟨place, stem, found⟩ := exists_found named isDir h
    cases isText : RawText.text? (stem ++ RawText.ofText ending) with
    | none => exact absurd ⟨_, found.fileName?, isText⟩ garbled
    | some name =>
      -- what is left of a text without its end is a text
      obtain ⟨module, back, -, rfl, -⟩ :=
        List.map_eq_append_iff.mp (RawText.text?_eq_some.mp isText).symm
      refine ⟨module, moduleName_eq_ok.mpr ⟨found.fileName?, ?_⟩⟩
      rintro rfl
      exact bare found.fileName?

end OutlineFile

namespace CommandLine

open Generation (made made_of_unnamed cases_of_made_eq_error)
open OutlineFile (Bare Garbled)

variable {colored force : Bool} {format : Format} {settings : Settings}
  {dir? config? : Option RawText} {m m' : Machine} {dir path outline : RawText}
  {paths : List RawText} {f : Failure}

/-! ### Outlines to blame -/

section Blameless

variable {α : Type}

/-- Nothing is said of a run. -/
theorem leads_trivial (c : StateM Machine α) : Leads (fun _ => True) c fun _ _ => True :=
  fun _ _ => trivial

/-- A result blames no outline. -/
def Blameless (result : Except Trouble α) : Prop :=
  ∀ outline f, result ≠ .error (.processing outline f)

theorem leads_mayWrite_blameless (force : Bool) (path : RawText) :
    Leads (fun _ => True) (mayWrite force path) fun allowed _ => Blameless allowed := by
  rw [mayWrite]
  split
  · exact .pure fun _ _ => by simp [Blameless]
  · refine (leads_trivial _).bind fun there => ?_
    split
    · refine (leads_trivial _).bind fun answer => .pure fun _ _ => ?_
      cases answer <;> simp [Blameless, Except.mapError, Except.map]
    · exact .pure fun _ _ => by simp [Blameless]

/-- No outline is to blame for what goes wrong while files are written. -/
theorem leads_writeArtifacts_blameless (force : Bool) (artifacts : List Artifact) :
    Leads (fun _ => True) (writeArtifacts force artifacts) fun result _ => Blameless result := by
  induction artifacts with
  | nil => exact .pure fun _ _ => by simp [Blameless]
  | cons a rest ih =>
    rw [writeArtifacts]
    refine (leads_mayWrite_blameless force a.path).bind fun allowed => ?_
    split
    · exact .pure fun _ blameless => by simpa [Blameless] using blameless
    · exact ih.weaken fun _ _ => trivial
    · refine Leads.weaken ((leads_trivial _).bind fun written => ?_) fun _ _ => trivial
      split
      · exact .pure fun _ _ => by simp [Blameless]
      · exact ih

end Blameless

/-- **A turn blames its own outline**, for what has kept its files from being made. -/
theorem made_of_turn
    (h : turn colored settings dir? force format path m = (.error (.processing outline f), m')) :
    outline = path ∧ m' = m ∧ made settings dir? m.disk path = .error f ∧ ∀ a, f ≠ .aborted a := by
  rw [turn] at h
  cases result : made settings dir? m.disk path with
  | error g =>
    rw [result] at h
    cases g with
    | aborted => simp at h
    | _ =>
      obtain ⟨⟨rfl, rfl⟩, rfl⟩ : (path = outline ∧ _ = f) ∧ m = m' := by simpa using h
      exact ⟨rfl, rfl, rfl, by simp⟩
  | ok g =>
    have blameless := leads_writeArtifacts_blameless force g.artifacts
      (shown colored format path g.diagnostics m) trivial
    simp only [result] at h
    rcases written : (writeArtifacts force g.artifacts :
      StateM Machine (Except Trouble Unit)).run (shown colored format path g.diagnostics m) with
      ⟨t | _, m₁⟩
    · rw [written] at h blameless
      exact absurd (congrArg Except.error (Except.error.inj (Prod.mk.inj h).1))
        (blameless outline f)
    · rw [written] at h
      simp [Except.map] at h

/-- **Turns stop at one of their outlines**, for what has kept its files from being made after the
turns of those before. -/
theorem made_of_turns
    (h : turns colored settings dir? force format paths m =
      (.error (.processing outline f), m')) :
    ∃ front rest n, paths = front ++ outline :: rest ∧
      turns colored settings dir? force format front m = (.ok n, m') ∧
      made settings dir? m'.disk outline = .error f ∧ ∀ a, f ≠ .aborted a := by
  induction paths generalizing m with
  | nil => simp at h
  | cons path rest ih =>
    rw [turns_cons] at h
    rcases taken : turn colored settings dir? force format path m with ⟨t | k, m₁⟩
    · simp only [taken] at h
      obtain ⟨rfl, rfl, stopped, ended⟩ := made_of_turn (taken.trans h)
      exact ⟨[], rest, 0, rfl, rfl, stopped, ended⟩
    · rcases later : turns colored settings dir? force format rest m₁ with ⟨t | l, m₂⟩
      · obtain ⟨rfl, rfl⟩ : t = .processing outline f ∧ m₂ = m' := by
          simpa [taken, later, Except.map] using h
        obtain ⟨front, last, n, rfl, before, stopped⟩ := ih later
        refine ⟨path :: front, last, n + k, rfl, ?_, stopped⟩
        rw [turns_cons, taken]
        simp only [before, Except.map]
      · simp [taken, later, Except.map] at h

/-- The turn of a bare or garbled name is the last one. -/
theorem turns_rejected (h : Bare path ∨ Garbled path) (rest : List RawText) (m : Machine) :
    turns colored settings dir? force format (path :: rest) m =
      (.error (.processing path (.invalidOutlinePath path)), m) := by
  rw [turns_cons, turn, made_of_unnamed (OutlineFile.moduleName_ne_ok h)]

/-! ### Runs over a directory -/

/-- What a run that makes files comes to, and the machine after it. -/
def performed (colored : Bool) (dir : RawText) (dir? config? : Option RawText) (force : Bool)
    (format : Format) (m : Machine) : Except Trouble Nat × Machine :=
  (perform colored (.generate dir dir? config? force format) :
    StateM Machine (Except Trouble Nat)).run m

theorem performed_eq (isDir : m.disk.isDirectory dir = true) (loads : Loads m config? settings) :
    performed colored dir dir? config? force format m =
      turns colored settings dir? force format (m.found dir) m := by
  rw [performed, perform, run_overOutlines _ loads (lists_of_isDirectory isDir), turns]

/-- A run over a directory gives the outlines that are found their turns, unless something is
missing; and then no outline is to blame. -/
theorem performed_cases (colored force : Bool) (format : Format) (dir? config? : Option RawText)
    (isDir : m.disk.isDirectory dir = true) :
    (∃ settings, Loads m config? settings ∧
      performed colored dir dir? config? force format m =
        turns colored settings dir? force format (m.found dir) m) ∨
    ∃ t, Blameless (.error t : Except Trouble Nat) ∧
      performed colored dir dir? config? force format m = (.error t, m) := by
  rcases lookups_or_missing (fun settings paths =>
    generateAll colored settings dir? force format paths) m config? dir with
    ⟨settings, -, loads, -⟩ | ⟨t, blameless, missing⟩
  · exact .inl ⟨settings, loads, performed_eq isDir loads⟩
  · exact .inr ⟨t, fun outline f h => blameless outline f (Except.error.inj h), missing⟩

/-- **A run stops at an outline that was found**, after the turns of all before it. The name is to
blame exactly if it is bare or garbled. -/
theorem exists_of_stopped (named : m.disk.root.WellNamed) (isDir : m.disk.isDirectory dir = true)
    (stops : performed colored dir dir? config? force format m =
      (.error (.processing outline f), m')) :
    ∃ settings front rest n, Loads m config? settings ∧
      m.found dir = front ++ outline :: rest ∧
      turns colored settings dir? force format front m = (.ok n, m') ∧
      ((Bare outline ∨ Garbled outline) ∧ f = .invalidOutlinePath outline ∨
        ¬(Bare outline ∨ Garbled outline) ∧
          (f = .unknownBackend settings.backend ∨ ∃ e, f = .fileRead outline e)) := by
  obtain ⟨settings, loads, turned⟩ | ⟨t, blameless, missing⟩ :=
    performed_cases colored force format dir? config? isDir
  · obtain ⟨front, rest, n, parts, before, stopped, ended⟩ :=
      made_of_turns (turned.symm.trans stops)
    refine ⟨settings, front, rest, n, loads, parts, before, ?_⟩
    have mem : outline ∈ m.found dir := by
      rw [parts]
      exact List.mem_append_right _ List.mem_cons_self
    have accepted := OutlineFile.exists_moduleName_iff named isDir mem
    rcases cases_of_made_eq_error stopped with ⟨rfl, unnamed⟩ | ⟨hasModule, cause⟩
    · exact .inl ⟨by_contra fun proper => not_exists.mpr unnamed (accepted.mpr proper), rfl⟩
    · refine .inr ⟨accepted.mp hasModule, ?_⟩
      rcases cause with unknown | unread | ⟨a, aborted⟩
      · exact .inl unknown
      · exact .inr unread
      · exact absurd aborted (ended a)
  · exact absurd (Prod.mk.inj (missing.symm.trans stops)).1 (blameless outline f)

/-- Turns with a rejected name among theirs stop before it or at it. -/
theorem turns_ne_ok (h : Bare outline ∨ Garbled outline) (front rest : List RawText) (m : Machine)
    (n : Nat) :
    (turns colored settings dir? force format (front ++ outline :: rest) m).1 ≠ .ok n := by
  rw [turns_append]
  simp only [turns_rejected h]
  split <;> exact fun ended => nomatch ended

/-- **Finding and naming disagree about bare and garbled names alone.** An outline that is found
has a module unless its name is bare or garbled. If a run over a directory stops at an outline, it
is one that was found there, and all before it have had their turns; its name is bare or garbled and
is rejected, or it is neither, and the backend is unknown or the file cannot be read. With such a
name among the outlines the run does not come to its end: where it comes to this name without
trouble, it stops there, and what it has written before stays. -/
theorem rejected_iff_bare_or_garbled (named : m.disk.root.WellNamed)
    (isDir : m.disk.isDirectory dir = true) :
    (∀ path ∈ m.found dir,
      (∃ module, OutlineFile.moduleName path = .ok module) ↔ ¬(Bare path ∨ Garbled path)) ∧
    ∀ colored dir? config? force format,
      (∀ outline f m',
        performed colored dir dir? config? force format m =
            (.error (.processing outline f), m') →
          ∃ settings front rest n, Loads m config? settings ∧
            m.found dir = front ++ outline :: rest ∧
            turns colored settings dir? force format front m = (.ok n, m') ∧
            ((Bare outline ∨ Garbled outline) ∧ f = .invalidOutlinePath outline ∨
              ¬(Bare outline ∨ Garbled outline) ∧
                (f = .unknownBackend settings.backend ∨ ∃ e, f = .fileRead outline e))) ∧
      ((∃ outline ∈ m.found dir, Bare outline ∨ Garbled outline) →
        ∀ n, (performed colored dir dir? config? force format m).1 ≠ .ok n) ∧
      ∀ settings front outline rest n m', Loads m config? settings →
        m.found dir = front ++ outline :: rest → Bare outline ∨ Garbled outline →
          turns colored settings dir? force format front m = (.ok n, m') →
            performed colored dir dir? config? force format m =
              (.error (.processing outline (.invalidOutlinePath outline)), m') := by
  refine ⟨fun path => OutlineFile.exists_moduleName_iff named isDir,
    fun colored dir? config? force format => ⟨fun outline f m' => exists_of_stopped named isDir,
      ?_, ?_⟩⟩
  · rintro ⟨outline, mem, rejected⟩ n ends
    obtain ⟨settings, -, turned⟩ | ⟨t, -, missing⟩ :=
      performed_cases colored force format dir? config? isDir
    · obtain ⟨front, rest, parts⟩ := List.append_of_mem mem
      rw [turned, parts] at ends
      exact turns_ne_ok rejected front rest m n ends
    · rw [missing] at ends
      cases ends
  · intro settings front outline rest n m' loads parts rejected taken
    rw [performed_eq isDir loads, parts, turns_append, taken]
    simp only [turns_rejected rejected]
    rfl

/-- A name that is no text, and ends as the names of outlines do. -/
def garbledName : RawText := .stray 0xFF [] :: RawText.ofText OutlineFile.ending

/-- A working directory with an outline and, further below, a file whose name is bare and one whose
name is garbled. -/
def halfway : Machine where
  disk :=
    { root := .directory
        [("a.oln.py", .file (.text "\"\"\"\nCONTRACT | f : int -> int\n")),
          ("b", .directory [(".oln.py", .file (.text [])), (garbledName, .file (.text []))])]
      work := [] }
  input := []
  events := []

/-- The path of the file whose name is garbled. -/
def garbledPath : RawText := RawText.ofText "./b/" ++ garbledName

theorem found_halfway :
    halfway.found Path.dot = (["./a.oln.py", "./b/.oln.py", garbledPath] : List RawText) :=
  OutlineFile.found_of_pairwise [["a.oln.py"], ["b", ".oln.py"], ["b", garbledName]] rfl (by decide)

theorem bare_halfway : Bare "./b/.oln.py" := by
  unfold Bare
  decide

theorem garbled_halfway : Garbled garbledPath := ⟨garbledName, rfl, rfl⟩

/-- The stub of the first outline has been written when the run stops. -/
theorem rejected_iff_bare_or_garbled_halfway : ∃ m', halfway.disk.root.WellNamed ∧
    halfway.disk.isDirectory Path.dot = true ∧
    performed false Path.dot none none true .text halfway =
      (.error (.processing "./b/.oln.py" (.invalidOutlinePath "./b/.oln.py")), m') ∧
    m'.disk.isFile "a.py" = true ∧
    (∃ module, OutlineFile.moduleName "./a.oln.py" = .ok module) ∧
    ¬∃ module, OutlineFile.moduleName garbledPath = .ok module := by
  have named : halfway.disk.root.WellNamed := by decide
  have isDir : halfway.disk.isDirectory Path.dot = true := by decide
  obtain ⟨accepted, runs⟩ := rejected_iff_bare_or_garbled named isDir
  obtain ⟨-, -, stops⟩ := runs false none none true .text
  obtain ⟨g, d₁, d₂, yields, stub, tests, written⟩ : ∃ g d₁ d₂,
      halfway.disk.Yields .standard none "./a.oln.py" g ∧
      halfway.disk.write g.stub.path g.stub.contents = .ok d₁ ∧
      d₁.write g.tests.path g.tests.contents = .ok d₂ ∧ d₂.isFile "a.py" = true :=
    ⟨_, _, _, ⟨_, _, _, _, rfl, rfl, rfl, rfl⟩, rfl, rfl, rfl⟩
  have batch : halfway.disk.Batch .standard none ["./a.oln.py"] [some g] d₂ :=
    .cons (.written yields stub tests) (.nil _)
  obtain ⟨m', taken, rfl⟩ := turns_of_batch false .text batch
  refine ⟨m', named, isDir,
    stops .standard _ _ _ _ m' rfl found_halfway (.inl bare_halfway) taken, written,
    (accepted "./a.oln.py" ?_).mpr ?_, fun named => (accepted _ ?_).mp named (.inr garbled_halfway)⟩
  · rw [found_halfway]
    exact List.mem_cons_self
  · rintro (bare | ⟨name, garbled, noText⟩)
    · revert bare
      unfold Bare
      decide
    · obtain rfl : RawText.ofText "a.oln.py" = name := Option.some.inj garbled
      cases noText
  · rw [found_halfway]
    simp

/-- **An outline that is found can be rejected for its name.** -/
theorem not_accepted_of_found : ¬∀ (m : Machine) (dir : RawText), m.disk.root.WellNamed →
    m.disk.isDirectory dir = true →
      ∀ path ∈ m.found dir, ∃ module, OutlineFile.moduleName path = .ok module := by
  intro h
  have mem : ("./b/.oln.py" : RawText) ∈ halfway.found Path.dot := by
    rw [found_halfway]
    exact List.mem_cons_of_mem _ List.mem_cons_self
  obtain ⟨module, accepted⟩ := h halfway Path.dot (by decide) (by decide) _ mem
  exact OutlineFile.moduleName_ne_ok (.inl bare_halfway) module accepted

end CommandLine

end DesignRecipe

import DesignRecipe.CommandLine.Run
import DesignRecipe.Proofs.Generation

/-!
# A run, outline by outline

The outlines take turns: what is made from one is written before the next is read. So a run is
told by what one turn does to the machine (`DesignRecipe.CommandLine.turn`), and by how the
turns follow each other (`DesignRecipe.CommandLine.run_generateAll_cons`): a turn in which there
is trouble is the last one.

Around the turns nothing but reports is added. Settings and outlines are looked up on the machine
as it was before, and the lookups leave it as it is.
-/

namespace DesignRecipe.CommandLine

open Generation (made run_make)

variable {colored force : Bool} {format : Format} {settings : Settings}
  {dir? config? : Option RawText} {m : Machine} {path : RawText}

/-! ### Turns -/

/-- The machine after the diagnostics of an outline have been shown. -/
def shown (colored : Bool) (format : Format) (path : RawText) (ds : List Diagnostic) (m : Machine) :
    Machine :=
  m.record (.err (Report.diagnostics colored (RawText.shown path) ds format))

@[simp] theorem disk_shown (path : RawText) (ds : List Diagnostic) (m : Machine) :
    (shown colored format path ds m).disk = m.disk := rfl

/-- **What one outline does to a machine**: how many outlines have aborted in its turn, unless
there was trouble, and the machine after it. -/
def turn (colored : Bool) (settings : Settings) (dir? : Option RawText) (force : Bool)
    (format : Format) (path : RawText) (m : Machine) : Except Trouble Nat × Machine :=
  match made settings dir? m.disk path with
  | .error (.aborted a) => (.ok 1, shown colored format path a.diagnostics m)
  | .error f => (.error (.processing path f), m)
  | .ok g =>
    let (written, m) := (writeArtifacts force g.artifacts :
      StateM Machine (Except Trouble Unit)).run (shown colored format path g.diagnostics m)
    (written.map fun () => 0, m)

/-- The turns of outlines, one after the other. -/
def turns (colored : Bool) (settings : Settings) (dir? : Option RawText) (force : Bool)
    (format : Format) (paths : List RawText) (m : Machine) : Except Trouble Nat × Machine :=
  (generateAll colored settings dir? force format paths :
    StateM Machine (Except Trouble Nat)).run m

@[simp] theorem turns_nil : turns colored settings dir? force format [] m = (.ok 0, m) := rfl

/-- **The turns follow each other** as long as there is no trouble. -/
theorem turns_cons (rest : List RawText) :
    turns colored settings dir? force format (path :: rest) m =
      match turn colored settings dir? force format path m with
      | (.error t, m') => (.error t, m')
      | (.ok n, m') =>
        ((turns colored settings dir? force format rest m').1.map (· + n),
          (turns colored settings dir? force format rest m').2) := by
  rw [turns, turn, generateAll, StateT.run_bind, run_make]
  change ((match made settings dir? m.disk path with
    | .error (.aborted a) => _
    | .error f => _
    | .ok g => _ : StateM Machine (Except Trouble Nat)).run m) = _
  cases made settings dir? m.disk path with
  | error f => cases f <;> rfl
  | ok g =>
    have display : (showDiagnostics colored format path g.diagnostics : StateM Machine Unit).run m =
        ((), shown colored format path g.diagnostics m) := rfl
    simp only [StateT.run_bind, display]
    change ((writeArtifacts force g.artifacts : StateM Machine (Except Trouble Unit)).run
      (shown colored format path g.diagnostics m) >>= fun _ => _ : Id _) = _
    generalize (writeArtifacts force g.artifacts : StateM Machine (Except Trouble Unit)).run
      (shown colored format path g.diagnostics m) = written
    obtain ⟨result, m'⟩ := written
    cases result with
    | error => rfl
    | ok => exact Prod.ext (congrFun Except.map_id _).symm rfl

/-- **The turns of some outlines come before those of others.** -/
theorem turns_append (front rest : List RawText) (m : Machine) :
    turns colored settings dir? force format (front ++ rest) m =
      match turns colored settings dir? force format front m with
      | (.error t, m') => (.error t, m')
      | (.ok n, m') =>
        ((turns colored settings dir? force format rest m').1.map (· + n),
          (turns colored settings dir? force format rest m').2) := by
  induction front generalizing m with
  | nil => exact Prod.ext (congrFun Except.map_id _).symm rfl
  | cons path front ih =>
    rw [List.cons_append, turns_cons, turns_cons]
    rcases turn colored settings dir? force format path m with ⟨t | k, m₁⟩
    · rfl
    · simp only [ih]
      rcases turns colored settings dir? force format front m₁ with ⟨t | n, m₂⟩
      · rfl
      · simp only [Except.map]
        rcases turns colored settings dir? force format rest m₂ with ⟨t | l, m₃⟩
        · rfl
        · simp only [Nat.add_assoc]

/-! ### Around the turns -/

/-- The settings that are loaded on a machine. -/
def Loads (m : Machine) (config? : Option RawText) (settings : Settings) : Prop :=
  ((Settings.load config? : StateM Machine (Except Failure Settings)).run m).1 = .ok settings

/-- The outlines that a path stands for on a machine. -/
def Lists (m : Machine) (path : RawText) (paths : List RawText) : Prop :=
  ((outlinesAt path : StateM Machine (Except Trouble (List RawText))).run m).1 = .ok paths

theorem run_load (m : Machine) (config? : Option RawText) :
    ((Settings.load config? : StateM Machine (Except Failure Settings)).run m).2 = m := by
  cases config? with
  | none => rfl
  | some path =>
    have read : (Host.read path : StateM Machine (Except FileError Text)).run m =
        (m.disk.read path, m) := rfl
    rw [Settings.load, StateT.run_bind, read]
    cases m.disk.read path <;> rfl

/-- What a path stands for: the outlines below a directory, or a file itself. -/
theorem run_outlinesAt (m : Machine) (path : RawText) :
    (outlinesAt path : StateM Machine (Except Trouble (List RawText))).run m =
      (if m.disk.isDirectory path then .ok (m.found path)
        else if m.disk.isFile path then .ok [path] else .error (.missingPath path), m) := by
  rw [outlinesAt, StateT.run_bind]
  change ((if m.disk.isDirectory path = true then _ else _ :
    StateM Machine (Except Trouble (List RawText))).run m) = _
  split
  · rfl
  · rw [StateT.run_bind]
    change ((if m.disk.isFile path = true then _ else _ :
      StateM Machine (Except Trouble (List RawText))).run m) = _
    split <;> rfl

theorem lists_of_isDirectory (isDir : m.disk.isDirectory path = true) :
    Lists m path (m.found path) := by
  rw [Lists, run_outlinesAt, if_pos isDir]

section Lookups

variable {paths : List RawText}
  (treat : Settings → List RawText → StateM Machine (Except Trouble Nat))

/-- **A command over outlines treats those that are there at its start.** -/
theorem run_overOutlines (loads : Loads m config? settings) (lists : Lists m path paths) :
    (overOutlines config? path treat).run m = (treat settings paths).run m := by
  have load : (Settings.load config? : StateM Machine (Except Failure Settings)).run m =
      (.ok settings, m) := Prod.ext loads (run_load m config?)
  have outlines : (outlinesAt path : StateM Machine (Except Trouble (List RawText))).run m =
      (.ok paths, m) := Prod.ext lists (by rw [run_outlinesAt])
  rw [overOutlines, StateT.run_bind, load]
  change ((outlinesAt path >>= fun _ => _ : StateM Machine (Except Trouble Nat)).run m) = _
  rw [StateT.run_bind, outlines]
  rfl

/-- Where settings or outlines are missing, nothing is done, and no outline is to blame. -/
theorem lookups_or_missing (m : Machine) (config? : Option RawText) (path : RawText) :
    (∃ settings paths, Loads m config? settings ∧ Lists m path paths) ∨
      ∃ t, (∀ outline f, t ≠ .processing outline f) ∧
        (overOutlines config? path treat).run m = (.error t, m) := by
  rcases loaded : (Settings.load config? : StateM Machine (Except Failure Settings)).run m with
    ⟨f | settings, m'⟩
  · obtain rfl : m' = m := by simpa [loaded] using run_load m config?
    refine .inr ⟨.loading f, by simp, ?_⟩
    rw [overOutlines, StateT.run_bind, loaded]
    rfl
  · obtain rfl : m' = m := by simpa [loaded] using run_load m config?
    rcases outlined : (outlinesAt path : StateM Machine (Except Trouble (List RawText))).run m' with
      ⟨t | paths, m''⟩
    · obtain rfl : m'' = m' := by
        simpa [outlined] using congrArg Prod.snd (run_outlinesAt m' path)
      have missing : t = .missingPath path := by
        have result := congrArg Prod.fst (run_outlinesAt m'' path)
        rw [outlined] at result
        split_ifs at result
        exact Except.error.inj result
      refine .inr ⟨t, by simp [missing], ?_⟩
      rw [overOutlines, StateT.run_bind, loaded]
      change ((outlinesAt path >>= fun _ => _ : StateM Machine (Except Trouble Nat)).run m'') = _
      rw [StateT.run_bind, outlined]
      rfl
    · exact .inl ⟨settings, paths, by rw [Loads, loaded], by rw [Lists, outlined]⟩

end Lookups

/-- What a run comes to: its exit status, and the machine once trouble has been reported. -/
def ended : Except Trouble Nat × Machine → Nat × Machine
  | (.error t, m) => (failureStatus, m.record (.err ("Error: " ++ t.message ++ "\n")))
  | (.ok aborted, m) => (exitStatus aborted, m)

theorem run_of_read {arguments : List RawText} {command : Command}
    (h : read arguments = .ok command) (m : Machine) :
    (run colored arguments : StateM Machine Nat).run m =
      ended ((perform colored command : StateM Machine (Except Trouble Nat)).run m) := by
  rw [run, h]
  simp only [StateT.run_bind]
  rcases (perform colored command : StateM Machine (Except Trouble Nat)).run m with
    ⟨_ | _, m'⟩ <;> rfl

section Generate

variable {arguments : List RawText}
  (h : read arguments = .ok (.generate path dir? config? force format))
include h

/-- **A run that makes files** takes the turns of the outlines. -/
theorem run_generate {paths : List RawText} (loads : Loads m config? settings)
    (lists : Lists m path paths) :
    (run colored arguments : StateM Machine Nat).run m =
      ended (turns colored settings dir? force format paths m) := by
  rw [run_of_read h, perform, run_overOutlines _ loads lists, turns]

/-- Where settings or outlines are missing, the run ends at once. -/
theorem run_generate_missing (colored : Bool) (m : Machine) :
    (∃ settings paths, Loads m config? settings ∧ Lists m path paths) ∨
      ∃ t, (run colored arguments : StateM Machine Nat).run m = ended (.error t, m) := by
  rw [run_of_read h, perform]
  exact (lookups_or_missing _ m config? path).imp_right
    fun ⟨t, _, missing⟩ => ⟨t, congrArg ended missing⟩

end Generate

end DesignRecipe.CommandLine

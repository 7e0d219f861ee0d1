import DesignRecipe.Proofs.CommandLine.Turn
import DesignRecipe.Proofs.Machine

/-!
# Nothing is overwritten without consent

A run that asks keeps to one rule: where a file that was there before has changed, a question
about it has been answered with yes. The record of what has happened holds every question
together with its answer, so the rule can be told from the machine before the run, the events
that the run adds, and the machine after it (`DesignRecipe.CommandLine.Consented`).

There is one thing to arrange. A question is put where the path of the file leads anywhere, and
the file is written to where the path has a slot. If the place that is written to holds a file,
then the path leads there (`DesignRecipe.Disk.occupied_of_write`), so no file escapes the
question.

The rule holds of a run that does nothing, it is kept by every question and by every write that
comes after its question, and runs that keep to it one after the other do so together. So a run
keeps to it however it ends. Every answer is a line of the input of its own: the events that a
run adds tell what has become of the input (`DesignRecipe.CommandLine.Answers`). A line that is no
text is used up too, but it does not answer the question, and the run ends there.
-/

namespace DesignRecipe

/-- Where something stands in the place of what is written, the path leads there. -/
theorem Disk.occupied_of_write {d d' : Disk} {path : RawText} {s : Text} {content : Content}
    (h : d.write path s = .ok d')
    (file : d.root.shape? (d.destination path) = some (some content)) :
    d.occupied path = true := by
  obtain ⟨before, place, name, slot, -⟩ := exists_of_write h
  have walks : d.root.Walks (d.start path) (Path.names path) (d.destination path) := by
    rw [slot.names_eq, slot.destination_eq]
    refine slot.walks.append (.down slot.directory slot.telling slot.ahead slot.short ?_ (.done _))
    rw [← slot.destination_eq, file]
    exact Option.some_ne_none _
  have there : d.content? path = some content := content?_eq_some.mpr ⟨slot.ok, walks, file⟩
  rw [content?] at there
  rw [occupied]
  split at there
  · next found => rw [found, Option.isSome_some]
  · exact absurd there (by simp)

namespace CommandLine

open Machine (lineFeed)

/-! ### Questions and answers -/
/-- **The lines of an input answer the questions among events**, one line each and in order. An
answer has the line feed of its line, if there is one, and where the input is exhausted the
answer is empty. -/
inductive Answers : RawText → List Event → RawText → Prop
  | done (input : RawText) : Answers input [] input
  /-- The event is no question. -/
  | passed {input rest : RawText} {e : Event} {events : List Event} :
      (∀ question answer, e ≠ .asked question answer) → Answers input events rest →
      Answers input (e :: events) rest
  /-- The first line of the input is the answer. -/
  | line {line input rest : RawText} {question : Text} {events : List Event} :
      lineFeed ∉ line → Answers input events rest →
      Answers (line ++ lineFeed :: input) (.asked question (line ++ [lineFeed]) :: events) rest
  /-- The input has no line feed: the answer is what is left of it. -/
  | last {line rest : RawText} {question : Text} {events : List Event} : lineFeed ∉ line →
      Answers [] events rest → Answers line (.asked question line :: events) rest

theorem Answers.append {input between rest : RawText} {events events' : List Event}
    (h : Answers input events between) (h' : Answers between events' rest) :
    Answers input (events ++ events') rest := by
  induction h with
  | done => exact h'
  | passed he _ ih => exact .passed he (ih h')
  | line hline _ ih => exact .line hline (ih h')
  | last hline _ ih => exact .last hline (ih h')

/-- The first line of an input ends at its first line feed, if there is one. -/
theorem firstLine_cases (input : RawText) :
    (∃ line rest, lineFeed ∉ line ∧ input = line ++ lineFeed :: rest ∧
      Machine.firstLine input = (line ++ [lineFeed], rest)) ∨
    (lineFeed ∉ input ∧ Machine.firstLine input = (input, [])) := by
  induction input with
  | nil => exact .inr ⟨List.not_mem_nil, rfl⟩
  | cons c rest ih =>
    rw [Machine.firstLine]
    by_cases hc : c = lineFeed
    · exact .inl ⟨[], rest, List.not_mem_nil, by rw [hc, List.nil_append], by simp [hc]⟩
    · simp only [if_neg hc]
      rcases ih with ⟨line, more, hline, rfl, hfirst⟩ | ⟨hnone, hfirst⟩
      · refine .inl ⟨c :: line, more, ?_, rfl, by rw [hfirst, List.cons_append]⟩
        exact List.not_mem_cons_of_ne_of_not_mem (Ne.symm hc) hline
      · exact .inr ⟨List.not_mem_cons_of_ne_of_not_mem (Ne.symm hc) hnone, by rw [hfirst]⟩

/-- A question takes the first line. -/
theorem answers_firstLine (input : RawText) (question : Text) :
    Answers input [.asked question (Machine.firstLine input).1] (Machine.firstLine input).2 := by
  rcases firstLine_cases input with ⟨line, rest, hline, rfl, hfirst⟩ | ⟨hnone, hfirst⟩
  · rw [hfirst]
    exact .line hline (.done rest)
  · rw [hfirst]
    exact .last hnone (.done [])

theorem toLower_eq_y {c : Char} : c.toLower = 'y' ↔ c = 'y' ∨ c = 'Y' := by
  constructor
  · intro h
    by_cases upper : c.val ≥ 'A'.val ∧ c.val ≤ 'Z'.val
    · have code : c.val + ('a'.val - 'A'.val) = 'Y'.val + ('a'.val - 'A'.val) :=
        congrArg Char.val ((dif_pos upper).symm.trans h)
      exact .inr (Char.ext ((UInt32.add_left_inj _).mp code))
    · exact .inl ((dif_neg upper).symm.trans h)
  · rintro (rfl | rfl) <;> rfl

/-- **The answers that say yes.** -/
theorem isYes_iff (answer : Text) :
    isYes answer = true ↔ Text.trim answer = ['y'] ∨ Text.trim answer = ['Y'] := by
  have lower : ['y'].map Char.toLower = ['y'] := rfl
  rw [isYes, Text.equalsIgnoringCase, beq_iff_eq, lower]
  constructor
  · intro h
    obtain ⟨c, hc, hlower⟩ := List.map_eq_singleton_iff.mp h
    rw [hc]
    exact (toLower_eq_y.mp hlower).imp (congrArg ([·])) (congrArg ([·]))
  · rintro (h | h) <;> rw [h] <;> rfl

/-! ### Consent -/

/-- **A run overwrites with consent**: it adds events, the input answers the questions among them,
and each file that has changed is one of the files that are made, and a question about it has been
answered with yes. -/
structure Consented (made : Artifact → Prop) (m : Machine) (new : List Event) (m' : Machine) :
    Prop where
  work : m'.disk.work = m.disk.work
  events : m'.events = m.events ++ new
  answers : Answers m.input new m'.input
  changed : ∀ place content, m.disk.root.shape? place = some (some content) →
    m'.disk.root.shape? place ≠ some (some content) → ∃ a answer, made a ∧
      m.disk.destination a.path = place ∧
      .asked (overwriteQuestion a.path) (RawText.ofText answer) ∈ new ∧ isYes answer = true

/-- **A path is cleared** for a write: there is nothing under it, or a question about it has been
answered with yes. -/
def Cleared (d : Disk) (new : List Event) (path : RawText) : Prop :=
  d.occupied path = false ∨
    ∃ answer, .asked (overwriteQuestion path) (RawText.ofText answer) ∈ new ∧ isYes answer = true

namespace Consented

variable {made made' : Artifact → Prop} {m m₁ m₂ : Machine} {new new' : List Event}

theorem refl (made : Artifact → Prop) (m : Machine) : Consented made m [] m where
  work := rfl
  events := (List.append_nil _).symm
  answers := .done _
  changed _ _ h h' := absurd h h'

/-- The working directory stays, so paths lead to where they did. -/
theorem destination (h : Consented made m new m₁) (path : RawText) :
    m₁.disk.destination path = m.disk.destination path := by
  rw [Disk.destination, Disk.destination, Disk.start, Disk.start, h.work]

/-- **Runs one after the other.** -/
theorem trans (h : Consented made m new m₁) (h' : Consented made m₁ new' m₂) :
    Consented made m (new ++ new') m₂ where
  work := h'.work.trans h.work
  events := by rw [h'.events, h.events, List.append_assoc]
  answers := h.answers.append h'.answers
  changed place content before after := by
    -- The file has changed in the first run, or it has not and changes in the second.
    by_cases between : m₁.disk.root.shape? place = some (some content)
    · obtain ⟨a, answer, isMade, leads, asked, yes⟩ := h'.changed place content between after
      exact ⟨a, answer, isMade, (h.destination a.path).symm.trans leads,
        List.mem_append_right _ asked, yes⟩
    · obtain ⟨a, answer, isMade, leads, asked, yes⟩ := h.changed place content before between
      exact ⟨a, answer, isMade, leads, List.mem_append_left _ asked, yes⟩

theorem mono (h : Consented made m new m₁) (weaker : ∀ a, made a → made' a) :
    Consented made' m new m₁ where
  work := h.work
  events := h.events
  answers := h.answers
  changed place content before after := by
    obtain ⟨a, answer, isMade, rest⟩ := h.changed place content before after
    exact ⟨a, answer, weaker a isMade, rest⟩

/-- A report changes nothing. -/
theorem err (made : Artifact → Prop) (m : Machine) (text : Text) :
    Consented made m [.err text] (m.record (.err text)) where
  work := rfl
  events := rfl
  answers := .passed (fun _ _ => Event.noConfusion) (.done _)
  changed _ _ h h' := absurd h h'

/-- A question changes nothing either. -/
theorem ask (made : Artifact → Prop) (m : Machine) (question : Text) :
    Consented made m [.asked question (Machine.firstLine m.input).1] (m.answer question).2 where
  work := rfl
  events := rfl
  answers := answers_firstLine m.input question
  changed _ _ h h' := absurd h h'

/-- **A write keeps to the rule** if its path is cleared. -/
theorem write {a : Artifact} {d : Disk} (h : Consented made m new m₁) (isMade : made a)
    (cleared : Cleared m₁.disk new a.path)
    (written : m₁.disk.write a.path a.contents = .ok d) :
    Consented made m new { m₁ with disk := d } where
  work := by
    obtain ⟨-, -, -, -, rfl⟩ := Disk.exists_of_write written
    exact h.work
  events := h.events
  answers := h.answers
  changed place content before after := by
    -- If the file has not changed before, it is changed by the write, and so it is the one that is
    -- written.
    by_cases between : m₁.disk.root.shape? place = some (some content)
    · obtain rfl : place = m₁.disk.destination a.path := by
        by_contra away
        exact after (((Disk.agreeOff_of_write written).elsewhere place away).trans between)
      rcases cleared with unoccupied | ⟨answer, asked, yes⟩
      · exact absurd (Disk.occupied_of_write written between) (by simp [unoccupied])
      · exact ⟨a, answer, isMade, (h.destination a.path).symm, asked, yes⟩
    · exact h.changed place content before between

end Consented

/-! ### Files -/

section Files

variable {made : Artifact → Prop} {m₀ : Machine}

theorem run_mayWrite (path : RawText) (m : Machine) :
    (mayWrite false path : StateM Machine (Except Trouble Bool)).run m =
      if m.disk.occupied path then
        (((m.answer (overwriteQuestion path)).1.mapError .asking).map isYes,
          (m.answer (overwriteQuestion path)).2)
      else (.ok true, m) := by
  rw [mayWrite, if_neg Bool.false_ne_true, StateT.run_bind]
  change ((if m.disk.occupied path = true then _ else _ :
    StateM Machine (Except Trouble Bool)).run m) = _
  split <;> rfl

/-- Only an answer that is a text says yes. -/
theorem exists_of_answer {question : Text} {m : Machine}
    (h : ((m.answer question).1.mapError Trouble.asking).map isYes = .ok true) :
    ∃ answer, (Machine.firstLine m.input).1 = RawText.ofText answer ∧ isYes answer = true := by
  change ((Machine.said (Machine.firstLine m.input).1).mapError Trouble.asking).map isYes = _ at h
  rw [Machine.said] at h
  split at h
  next answer isText => exact ⟨answer, RawText.text?_eq_some.mp isText, Except.ok.inj h⟩
  next => cases h

/-- **Where leave to write is got, the path is cleared.** -/
theorem leads_mayWrite (path : RawText) :
    Leads (fun m => ∃ new, Consented made m₀ new m) (mayWrite false path) fun allowed m =>
      ∃ new, Consented made m₀ new m ∧ (allowed = .ok true → Cleared m.disk new path) := by
  rintro m ⟨new, h⟩
  rw [run_mayWrite]
  split
  · refine ⟨_, h.trans (.ask made m _), fun allowed => .inr ?_⟩
    obtain ⟨answer, isText, yes⟩ := exists_of_answer allowed
    exact ⟨answer, List.mem_append_right _ (isText ▸ List.mem_cons_self), yes⟩
  · next unoccupied => exact ⟨new, h, fun _ => .inl (by simpa using unoccupied)⟩

/-- **The files that are made are written with consent.** -/
theorem leads_writeArtifacts {artifacts : List Artifact} (h : ∀ a ∈ artifacts, made a) :
    Leads (fun m => ∃ new, Consented made m₀ new m) (writeArtifacts false artifacts)
      fun _ m => ∃ new, Consented made m₀ new m := by
  induction artifacts with
  | nil => exact .pure fun _ hm => hm
  | cons a rest ih =>
    have isMade := h a List.mem_cons_self
    have hrest := ih fun b hb => h b (List.mem_cons_of_mem _ hb)
    rw [writeArtifacts]
    refine .bind (leads_mayWrite a.path) fun allowed => ?_
    split
    · exact .pure fun _ reached => reached.imp fun _ => And.left
    · exact hrest.weaken fun _ reached => reached.imp fun _ => And.left
    · have stored : Leads (fun m => ∃ new, Consented made m₀ new m ∧ Cleared m.disk new a.path)
          a.write fun _ m => ∃ new, Consented made m₀ new m := by
        rintro m ⟨new, consented, cleared⟩
        change ∃ new, Consented made m₀ new (m.write a.path a.contents).2
        rw [Machine.write]
        split
        · next written => exact ⟨new, consented.write isMade cleared written⟩
        · exact ⟨new, consented⟩
      refine Leads.weaken (stored.bind fun result => ?_) fun _ reached =>
        reached.imp fun _ => And.imp_right fun cleared => cleared rfl
      split
      · exact .pure fun _ hm => hm
      · exact hrest

end Files

/-! ### Turns -/

variable {colored : Bool} {format : Format} {settings : Settings} {dir? config? : Option RawText}
  {m m₁ : Machine} {path : RawText} {paths rest : List RawText} {n : Nat}

/-- **A file that is made from an outline in its turn**: from what the outline holds after the
turns before, if that can be read to its end. -/
def MadeInTurn (colored : Bool) (settings : Settings) (dir? : Option RawText) (format : Format)
    (m : Machine) (paths : List RawText) (a : Artifact) : Prop :=
  ∃ front path rest n σ g, paths = front ++ path :: rest ∧
    turns colored settings dir? false format front m = (.ok n, σ) ∧
    σ.disk.Yields settings dir? path g ∧ a ∈ g.artifacts

/-- What is made in the first turn. -/
theorem MadeInTurn.head {g : Generation} {a : Artifact}
    (yields : m.disk.Yields settings dir? path g) (ha : a ∈ g.artifacts) :
    MadeInTurn colored settings dir? format m (path :: rest) a :=
  ⟨[], path, rest, 0, m, g, rfl, rfl, yields, ha⟩

/-- What is made in a later turn. -/
theorem MadeInTurn.tail {a : Artifact}
    (first : turn colored settings dir? false format path m = (.ok n, m₁))
    (h : MadeInTurn colored settings dir? format m₁ rest a) :
    MadeInTurn colored settings dir? format m (path :: rest) a := by
  obtain ⟨front, later, last, k, σ, g, rfl, taken, yields, ha⟩ := h
  refine ⟨path :: front, later, last, k + n, σ, g, rfl, ?_, yields, ha⟩
  rw [turns_cons, first]
  simp only [taken, Except.map]

/-- **A turn keeps to the rule.** -/
theorem exists_consented_turn (colored : Bool) (settings : Settings) (dir? : Option RawText)
    (format : Format) (path : RawText) (m : Machine) :
    ∃ new, Consented (fun a => ∃ g, m.disk.Yields settings dir? path g ∧ a ∈ g.artifacts) m new
      (turn colored settings dir? false format path m).2 := by
  rw [turn]
  cases made : Generation.made settings dir? m.disk path with
  | error f =>
    cases f with
    | aborted a => exact ⟨_, .err _ m _⟩
    | _ => exact ⟨_, .refl _ m⟩
  | ok g =>
    have yields := Generation.made_eq_ok.mp made
    have isMade : ∀ a ∈ g.artifacts,
        ∃ g, m.disk.Yields settings dir? path g ∧ a ∈ g.artifacts := fun a ha => ⟨g, yields, ha⟩
    have written := leads_writeArtifacts isMade (shown colored format path g.diagnostics m)
      ⟨_, .err _ m _⟩
    exact written

/-- **Turns keep to the rule**, also when there is trouble. -/
theorem exists_consented_turns (colored : Bool) (settings : Settings) (dir? : Option RawText)
    (format : Format) (paths : List RawText) (m : Machine) :
    ∃ new, Consented (MadeInTurn colored settings dir? format m paths) m new
      (turns colored settings dir? false format paths m).2 := by
  induction paths generalizing m with
  | nil => exact ⟨[], .refl _ m⟩
  | cons path rest ih =>
    obtain ⟨new, consented⟩ := exists_consented_turn colored settings dir? format path m
    have first : Consented (MadeInTurn colored settings dir? format m (path :: rest)) m new
        (turn colored settings dir? false format path m).2 :=
      consented.mono fun a ⟨g, yields, ha⟩ => .head yields ha
    -- The turns end here if there is trouble in the first one.
    rw [turns_cons]
    rcases taken : turn colored settings dir? false format path m with ⟨t | n, m₁⟩ <;>
      rw [taken] at first
    · exact ⟨new, first⟩
    · obtain ⟨new', later⟩ := ih m₁
      exact ⟨new ++ new', first.trans (later.mono fun a => .tail taken)⟩

/-- The report of trouble at the end of a run changes nothing. -/
theorem Consented.exists_ended {made : Artifact → Prop} {new : List Event}
    {result : Except Trouble Nat × Machine} (h : Consented made m new result.2) :
    ∃ new, Consented made m new (ended result).2 := by
  obtain ⟨t | n, m'⟩ := result
  · exact ⟨_, h.trans (.err made m' _)⟩
  · exact ⟨new, h⟩

/-- **Nothing is overwritten without consent.** After a run that asks, however it ends, each file
that was there before and has changed is the stub or the test file of an outline that could be
read to its end in its turn, and a question about it has been answered with `y` or `Y`. The
questions are answered by the lines of the input, one each and in order. -/
theorem consent_of_changed {arguments : List RawText}
    (h : read arguments = .ok (.generate path dir? config? false format)) (colored : Bool)
    (m : Machine) :
    ∃ new, ((run colored arguments : StateM Machine Nat).run m).2.events = m.events ++ new ∧
      Answers m.input new ((run colored arguments : StateM Machine Nat).run m).2.input ∧
      ∀ place content, m.disk.root.shape? place = some (some content) →
        ((run colored arguments : StateM Machine Nat).run m).2.disk.root.shape? place ≠
          some (some content) →
        ∃ settings paths a answer, Loads m config? settings ∧ Lists m path paths ∧
          MadeInTurn colored settings dir? format m paths a ∧
          m.disk.destination a.path = place ∧
          .asked (overwriteQuestion a.path) (RawText.ofText answer) ∈ new ∧
          (Text.trim answer = ['y'] ∨ Text.trim answer = ['Y']) := by
  have consented : ∃ new, Consented (fun a => ∃ settings paths, Loads m config? settings ∧
      Lists m path paths ∧ MadeInTurn colored settings dir? format m paths a) m new
      ((run colored arguments : StateM Machine Nat).run m).2 := by
    rcases run_generate_missing h colored m with
      ⟨settings, paths, loads, lists⟩ | ⟨t, missing⟩
    · rw [run_generate h loads lists]
      obtain ⟨new, taken⟩ := exists_consented_turns colored settings dir? format paths m
      exact (taken.mono fun a ha => ⟨settings, paths, loads, lists, ha⟩).exists_ended
    · rw [missing]
      exact (Consented.refl _ m).exists_ended
  obtain ⟨new, consented⟩ := consented
  refine ⟨new, consented.events, consented.answers, fun place content before after => ?_⟩
  obtain ⟨a, answer, ⟨settings, paths, loads, lists, made⟩, leads, asked, yes⟩ :=
    consented.changed place content before after
  exact ⟨settings, paths, a, answer, loads, lists, made, leads, asked, (isYes_iff answer).mp yes⟩

/-- A working directory with an outline and older files in the places of what is made from it. The
input consents to one of them. -/
def guarded : Machine where
  disk :=
    { root := .directory
        [("a.oln.py", .file (.text "\"\"\"\nCONTRACT | f : int -> int\n")),
          ("a.py", .file (.text "old stub")), ("a_tests.py", .file (.text "old tests"))]
      work := [] }
  input := "y\nno\n"
  events := []

theorem consent_of_changed_guarded : ∃ (m' : Machine) (new : List Event) (a : Artifact)
    (answer : Text),
    read ["generate", "a.oln.py"] = .ok (.generate "a.oln.py" none none false .text) ∧
    ((run false ["generate", "a.oln.py"] : StateM Machine Nat).run guarded).2 = m' ∧
    m'.events = new ∧ Answers "y\nno\n" new [] ∧
    m'.disk.root.shape? ["a.py"] ≠ some (some (.text "old stub")) ∧
    m'.disk.root.shape? ["a_tests.py"] = some (some (.text "old tests")) ∧
    guarded.disk.destination a.path = (["a.py"] : List RawText) ∧
    .asked (overwriteQuestion a.path) (RawText.ofText answer) ∈ new ∧
    (Text.trim answer = ['y'] ∨ Text.trim answer = ['Y']) := by
  have asked : read ["generate", "a.oln.py"] =
    .ok (.generate "a.oln.py" none none false .text) := by decide
  obtain ⟨m', finished, changed, kept, used⟩ : ∃ m',
      ((run false ["generate", "a.oln.py"] : StateM Machine Nat).run guarded).2 = m' ∧
      m'.disk.root.shape? ["a.py"] ≠ some (some (.text "old stub")) ∧
      m'.disk.root.shape? ["a_tests.py"] = some (some (.text "old tests")) ∧
      m'.input = [] :=
    ⟨_, rfl, by decide +kernel, by decide +kernel, by decide +kernel⟩
  have before : guarded.disk.root.shape? ["a.py"] = some (some (.text "old stub")) := rfl
  obtain ⟨new, events, answers, consent⟩ := consent_of_changed asked false guarded
  rw [finished] at events answers consent
  obtain ⟨-, -, a, answer, -, -, -, leads, put, yes⟩ := consent _ _ before changed
  exact ⟨m', new, a, answer, asked, finished, events, used ▸ answers, changed, kept, leads, put,
    yes⟩

end CommandLine

end DesignRecipe

import DesignRecipe.Outline.Contract
import DesignRecipe.Outline.Purpose
import DesignRecipe.Outline.InOuts
import DesignRecipe.Outline.ExampleLine
import DesignRecipe.Outline.Body

/-!
# Reading an outline

An outline is read line by line. Each line first moves the state, which looks at
nothing but the lines, and then goes to the reader of the section that the state names.
Exactly two things stop the reading: a contract without its arrow, and a line that
belongs to a function where no contract has come yet. Everything else is reported and
passed over.
-/

namespace DesignRecipe.Outline

/-- The settings that the reading of an outline depends on. -/
structure Options where
  /-- The types that have a meaning of their own, as they are to be spelled. -/
  recognizedTypes : List Text
  /-- The columns per level of a body outline. -/
  indentWidth : Nat
deriving DecidableEq, Repr

/-- The six primitive types are recognized, and four columns make a level. -/
def Options.standard : Options := ⟨Primitive.all.map Primitive.tag, 4⟩

/-- The end of a reading that could not go on: the diagnostic that stopped it, and
those raised before it. -/
structure Abort where
  critical : Diagnostic
  earlier : List Diagnostic
deriving DecidableEq, Repr

/-- All diagnostics of a reading that could not go on, in order. -/
def Abort.diagnostics (a : Abort) : List Diagnostic := a.earlier ++ [a.critical]

/-- What an outline describes, and the diagnostics raised on the way. -/
structure Output where
  recipes : List Recipe
  diagnostics : List Diagnostic

/-- A reading in progress. -/
structure Session where
  /-- The number of lines read. -/
  lineCount : Nat
  /-- The last line read. -/
  line : Text
  /-- The line before the last one. -/
  previousLine : Text
  state : State
  /-- The recipe under construction. -/
  current : Option Recipe
  /-- The recipes that are finished, in order. -/
  finished : List Recipe
  /-- The diagnostics raised so far, in order. -/
  diagnostics : List Diagnostic

namespace Session

/-- The reading before its first line. -/
def start : Session where
  lineCount := 0
  line := []
  previousLine := []
  state := .initial
  current := none
  finished := []
  diagnostics := []

/-- Reports findings on the last line read. -/
def report (s : Session) (findings : List Finding) : Session :=
  { s with
    diagnostics :=
      s.diagnostics ++ findings.map (Diagnostic.ofFinding .ignorable s.lineCount s.line) }

/-- Stops at a finding on the last line read. -/
def abort (s : Session) (f : Finding) : Abort :=
  ⟨Diagnostic.ofFinding .critical s.lineCount s.line f, s.diagnostics⟩

/-- What is reported when a recipe ends at a line. -/
def completeness (r : Recipe) (line : Nat) (source : Text) : List Diagnostic :=
  if r.isComplete then []
  else [Diagnostic.ofFinding .ignorable line source ⟨0, .incomplete r.name r.gaps⟩]

/-- Finishes the recipe under construction, if there is one. What it lacks is reported
at the given line. -/
def close (s : Session) (line : Nat) (source : Text) : Session :=
  match s.current with
  | none => s
  | some r =>
    { s with
      current := none
      finished := s.finished ++ [r]
      diagnostics := s.diagnostics ++ completeness r line source }

/-- Takes note of a line: the state moves, and the line becomes the last one read. -/
def advance (s : Session) (line : Text) : Session :=
  { s with
    lineCount := s.lineCount + 1
    line := line
    previousLine := s.line
    state := s.state.next line }

/-- Adds a line to a recipe. -/
def record (line : Text) (r : Recipe) : Recipe := { r with lines := r.lines ++ [line] }

/-- Reads a contract line: the recipe under construction ends at the line before, and
a new one starts. -/
def readContract (s : Session) (line : Text) : Except Abort Session :=
  let payload := Payload.ofLine line
  let s := s.report payload.findings
  match Contract.read payload with
  | .error f => .error (s.abort f)
  | .ok contract =>
    let s := s.close (max (s.lineCount - 1) 1) s.previousLine
    .ok { s with current := some (record line contract.recipe) }

/-- Changes the recipe under construction, or stops if there is none. -/
def change (s : Session) (f : Recipe → Recipe × List Finding) : Except Abort Session :=
  match s.current with
  | none => .error (s.abort ⟨0, .noContractYet⟩)
  | some r =>
    let (r, findings) := f r
    .ok { s.report findings with current := some r }

/-- The recipe after a line of a section that is no contract, and what was found wrong
with the line. -/
def readSection (options : Options) (heading : Heading) (line : Text) (r : Recipe) :
    Recipe × List Finding :=
  let payload := Payload.ofLine line
  match heading with
  | .purpose =>
    (record (line.filter (· != '`')) (Purpose.apply r payload.text), payload.findings)
  | .inOuts =>
    let (r, findings) := InOuts.apply options.recognizedTypes r payload
    (record line r, payload.findings ++ findings)
  | .example =>
    let (r, findings) := ExampleLine.apply options.recognizedTypes r payload
    (record line r, payload.findings ++ findings)
  | _ => (record line r, [])

/-- Reads a line of a body outline. -/
def readBody (options : Options) (s : Session) (line : Text) : Except Abort Session :=
  if Body.isEntry line then
    s.change fun r =>
      ({ r with outline := r.outline ++ [Body.entry options.indentWidth line] }, [])
  else .ok s

/-- Hands the last line read to the reader of its section. -/
def dispatch (options : Options) (s : Session) (line : Text) : Except Abort Session :=
  match s.state.region, s.state.heading with
  | .recipe, .contract => s.readContract line
  | .recipe, .none => .ok { s with current := s.current.map (record line) }
  | .recipe, heading => s.change (readSection options heading line)
  | .body, _ => s.readBody options line
  | _, _ => .ok s

/-- **Reads one line**, or stops at it. -/
def feed (options : Options) (s : Session) (line : Text) : Except Abort Session :=
  let line := Text.dropLineEnd line
  (s.advance line).dispatch options line

/-- Reads lines in order, up to the first one that stops the reading. -/
def feedAll (options : Options) (s : Session) : List Text → Except Abort Session
  | [] => .ok s
  | line :: rest =>
    match s.feed options line with
    | .error a => .error a
    | .ok s => s.feedAll options rest

/-- **Ends the reading**: the last recipe is finished. An outline without any contract
is an error. -/
def finish (s : Session) : Except Abort Output :=
  if s.current.isNone then .error (s.abort ⟨0, .noContract⟩)
  else
    let s := s.close s.lineCount s.line
    .ok ⟨s.finished, s.diagnostics⟩

end Session

/-- **Reads the lines of an outline** from start to end. -/
def readLines (options : Options) (lines : List Text) : Except Abort Output :=
  match Session.start.feedAll options lines with
  | .error a => .error a
  | .ok s => s.finish

/-- **Reads an outline.** -/
def read (options : Options) (text : Text) : Except Abort Output :=
  readLines options (Text.lines text)

end DesignRecipe.Outline

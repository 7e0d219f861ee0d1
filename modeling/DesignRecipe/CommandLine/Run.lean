import DesignRecipe.CommandLine.Arguments
import DesignRecipe.Generation
import DesignRecipe.Settings.Load

/-!
# Runs

What each command does. Outlines are taken one after the other, each to its end, and
the files made from one are written before the next is read. An outline that cannot be
read to its end is reported and passed over; any other failure ends the run. A file
that exists is overwritten only if a question about it is answered with yes, or if the
run was told not to ask.
-/

namespace DesignRecipe.CommandLine

/-! ### Failures of a run -/

/-- What ends a run before its end. -/
inductive Trouble
  | loading (failure : Failure)
  | missingPath (path : RawText)
  | processing (path : RawText) (failure : Failure)
  | checking (path : RawText) (failure : Failure)
  | writing (path : RawText) (failure : Failure)
  /-- A question was put, and there is no answer to be had. -/
  | asking (error : FileError)
deriving DecidableEq, Repr

/-- The wording of a trouble. -/
def Trouble.message : Trouble → Text
  | .loading f => "loading configuration: " ++ f.messageWithCause
  | .missingPath path => RawText.shown path ++ " does not exist"
  | .processing path f => "processing " ++ RawText.shown path ++ ": " ++ f.messageWithCause
  | .checking path f => "checking " ++ RawText.shown path ++ ": " ++ f.messageWithCause
  | .writing path f => "writing " ++ RawText.shown path ++ ": " ++ f.messageWithCause
  | .asking e => e.message

/-- The question whether a file may be overwritten. -/
def overwriteQuestion (path : RawText) : Text :=
  RawText.shown path ++ " already exists. Overwrite? [y/N] "

/-- Whether an answer says yes. -/
def isYes (answer : Text) : Bool := Text.equalsIgnoringCase (Text.trim answer) ['y']

/-- The exit status of a run that came to its end, by the number of outlines that could
not be read to theirs. -/
def exitStatus (aborted : Nat) : Nat := if aborted = 0 then 0 else 1

/-- The exit status of a run that ended early, or that never began. -/
def failureStatus : Nat := 2

section

variable {m : Type → Type} [Monad m] [Host m]

/-- **The outlines at a path**: the file itself, or all below the directory. -/
def outlinesAt (path : RawText) : m (Except Trouble (List RawText)) := do
  if ← Host.isDirectory path then return .ok (← OutlineFile.discover path)
  if ← Host.isFile path then return .ok [path]
  return .error (.missingPath path)

/-- Shows the diagnostics of an outline. -/
def showDiagnostics (colored : Bool) (format : Format) (path : RawText) (ds : List Diagnostic) :
    m Unit :=
  Host.err (Report.diagnostics colored (RawText.shown path) ds format)

/-! ### Making files -/

/-- Whether a file may be written. The question is put only where there is something
to lose, and without an answer the run cannot go on. -/
def mayWrite (force : Bool) (path : RawText) : m (Except Trouble Bool) := do
  if force then return .ok true
  if ← Host.occupied path then
    return ((← Host.ask (overwriteQuestion path)).mapError .asking).map isYes
  return .ok true

/-- Writes the files that may be written. -/
def writeArtifacts (force : Bool) : List Artifact → m (Except Trouble Unit)
  | [] => return .ok ()
  | a :: rest => do
    match ← mayWrite force a.path with
    | .error t => return .error t
    | .ok false => writeArtifacts force rest
    | .ok true =>
      match ← a.write with
      | .error f => return .error (.writing a.path f)
      | .ok () => writeArtifacts force rest

/-- **Makes and writes the files of outlines**, and counts the outlines that could not
be read to their end. -/
def generateAll (colored : Bool) (settings : Settings) (dir? : Option RawText) (force : Bool)
    (format : Format) : List RawText → m (Except Trouble Nat)
  | [] => return .ok 0
  | path :: rest => do
    match ← Generation.make settings dir? path with
    | .error (.aborted a) =>
      showDiagnostics colored format path a.diagnostics
      return (← generateAll colored settings dir? force format rest).map (· + 1)
    | .error f => return .error (.processing path f)
    | .ok g =>
      showDiagnostics colored format path g.diagnostics
      match ← writeArtifacts force g.artifacts with
      | .error t => return .error t
      | .ok () => generateAll colored settings dir? force format rest

/-! ### Checking -/

/-- **Reports on outlines**, and counts those that could not be read to their end. -/
def checkAll (colored : Bool) (options : Outline.Options) (format : Format) :
    List RawText → m (Except Trouble Nat)
  | [] => return .ok 0
  | path :: rest => do
    match ← OutlineFile.read options path with
    | .error (.aborted a) =>
      showDiagnostics colored format path a.diagnostics
      return (← checkAll colored options format rest).map (· + 1)
    | .error f => return .error (.checking path f)
    | .ok o =>
      showDiagnostics colored format path o.diagnostics
      Host.out (Report.functions colored (RawText.shown path) o.recipes format ++ "\n")
      checkAll colored options format rest

/-! ### Commands -/

/-- Loads settings, finds outlines and treats them all. -/
def overOutlines (config? : Option RawText) (path : RawText)
    (treat : Settings → List RawText → m (Except Trouble Nat)) : m (Except Trouble Nat) := do
  match ← Settings.load config? with
  | .error f => return .error (.loading f)
  | .ok settings =>
    match ← outlinesAt path with
    | .error t => return .error t
    | .ok paths => treat settings paths

/-- Writes the standard settings. -/
def writeStandardSettings (path : RawText) : m (Except Trouble Nat) := do
  match ← Settings.standard.save path with
  | .error f => return .error (.writing path f)
  | .ok () =>
    Host.out ("Wrote default configuration to " ++ RawText.shown path ++ "\n")
    return .ok 0

/-- How the program is used. -/
def usage : Text :=
  "Usage: drcop [-v] generate <PATH> [-o DIR] [-c FILE] [--force] [-f text|json|json-pretty]\n" ++
  "       drcop [-v] check <PATH> [-c FILE] [-f text|json|json-pretty]\n" ++
  "       drcop [-v] init [-o FILE]\n"

/-- What a command does: the number of outlines that could not be read to their end. -/
def perform (colored : Bool) : Command → m (Except Trouble Nat)
  | .generate path dir? config? force format =>
    overOutlines config? path fun settings paths =>
      generateAll colored settings dir? force format paths
  | .check path config? format =>
    overOutlines config? path fun settings paths =>
      checkAll colored settings.options format paths
  | .init path => writeStandardSettings path
  | .help => do
    Host.out usage
    return .ok 0
  | .version => do
    Host.out "drcop 0.1.0\n"
    return .ok 0

/-- **Runs the program** on arguments and gives its exit status. -/
def run (colored : Bool) (arguments : List RawText) : m Nat := do
  match read arguments with
  | .error .nothing =>
    Host.err usage
    return failureStatus
  | .error e =>
    Host.err ("error: " ++ e.message ++ "\n")
    return failureStatus
  | .ok command =>
    match ← perform colored command with
    | .error t =>
      Host.err ("Error: " ++ t.message ++ "\n")
      return failureStatus
    | .ok aborted => return exitStatus aborted

end

end DesignRecipe.CommandLine

import DesignRecipe.Coercion
import DesignRecipe.Token
import DesignRecipe.Recipe

/-!
# Diagnostics

What is reported about an outline: a problem, whether it stops the reading, and the
line and column that it points at. The excerpt of a long line is cut so that the
column stays in view.
-/

namespace DesignRecipe

/-- Whether reading goes on after a diagnostic. -/
inductive Severity
  | ignorable
  | critical
deriving DecidableEq, Repr

/-- The name of a severity. -/
def Severity.name : Severity → Text
  | .ignorable => "ignorable"
  | .critical => "critical"

/-- The two sides of an in/outs line. -/
inductive Channel
  | input
  | output
deriving DecidableEq, Repr

/-- The name of a side of an in/outs line. -/
def Channel.name : Channel → Text
  | .input => "input"
  | .output => "output"

/-- A place of an example line where a value is expected. Arguments count from zero. -/
inductive Slot
  | argument (position : Nat)
  | returnValue
deriving DecidableEq, Repr

/-- How a place of an example line is referred to. Arguments are counted from one. -/
def Slot.name : Slot → Text
  | .argument position => "argument " ++ Text.ofNat (position + 1)
  | .returnValue => "return value"

/-- What can be wrong with an outline. -/
inductive Problem
  /-- A line of a recipe has no pipe between its header and its payload. -/
  | missingPipe
  /-- The second-to-last word of a contract is no arrow. -/
  | contractWithoutArrow
  /-- A line belongs to a function, and no contract has come before it. -/
  | noContractYet
  /-- The outline ends without any contract. -/
  | noContract
  /-- The types of an in/outs line are not separated by a slash. -/
  | missingSlash
  /-- A side of an in/outs line, given in lower case, is no recognized type. -/
  | unrecognizedType (channel : Channel) (tag : Text)
  /-- An example has no arrow outside of quotes. -/
  | exampleWithoutArrow
  | missingValue (slot : Slot)
  | rejectedValue (rejection : Rejection)
  /-- The values of an example had to be repaired. -/
  | repaired (repair : Repair)
  /-- A function ended without all parts of its recipe. -/
  | incomplete (name : Text) (gaps : List Gap)
  /-- A problem in words of the caller's own. -/
  | other (message : Text)
deriving DecidableEq, Repr

/-- **The wording of a problem.** -/
def Problem.message : Problem → Text
  | .missingPipe => "Pipe (|) token is expected at the design recipe header."
  | .contractWithoutArrow => "Arrow (->) is expected in CONTRACT"
  | .noContractYet =>
    "Invalid syntax has caused function object to not populate (no CONTRACT before this line)"
  | .noContract => "Invalid syntax caused function object to not populate correctly."
  | .missingSlash => "Slash (/) token is expected in IN/OUTS"
  | .unrecognizedType channel tag =>
    "Unrecognized " ++ channel.name ++ " type '" ++ tag ++ "'"
  | .exampleWithoutArrow => "Arrow (->) is expected in EXAMPLE"
  | .missingValue slot => "Missing value for " ++ slot.name
  | .rejectedValue rejection =>
    "Argument value '" ++ rejection.token ++ "' was not accepted (" ++ rejection.message ++ ")"
  | .repaired repair => repair.message
  | .incomplete name gaps =>
    "Function '" ++ name ++ "' is incomplete (missing " ++
      Text.join ", " (gaps.map Gap.name) ++ ")"
  | .other message => message

/-- A problem and the column of its line that it points at. -/
structure Finding where
  column : Nat
  problem : Problem
deriving DecidableEq, Repr

/-- **A diagnostic**: a problem at a place of a line. Lines count from one. -/
structure Diagnostic where
  severity : Severity
  line : Nat
  column : Nat
  problem : Problem
  /-- The line that the column points into, without its line end. -/
  source : Text
deriving DecidableEq, Repr

namespace Diagnostic

/-- The wording of the problem. -/
def message (d : Diagnostic) : Text := d.problem.message

/-- The diagnostic that a finding on a line gives. -/
def ofFinding (severity : Severity) (line : Nat) (source : Text) (f : Finding) : Diagnostic :=
  ⟨severity, line, f.column, f.problem, Text.dropLineEnd source⟩

/-- Whether the diagnostic stops the reading. -/
def isCritical (d : Diagnostic) : Bool := d.severity = .critical

/-- The width of the excerpts in reports. -/
def excerptWidth : Nat := 72

/-- **The source cut to a width**, and the column of the excerpt that the diagnostic
points at. A longer source is cut at its end that is farther from the column, and
three dots stand in front. -/
def excerpt (d : Diagnostic) (width : Nat) : Text × Nat :=
  let length := d.source.length
  if length ≤ width then (d.source, min d.column length)
  else
    let start := min (length - width) d.column
    (['.', '.', '.'] ++ (d.source.drop start).take width, d.column - start + 3)

/-- The diagnostic on one line, without its source. -/
def summary (d : Diagnostic) : Text :=
  "line " ++ Text.ofNat d.line ++ " (" ++ d.severity.name ++ "): " ++ d.message

end Diagnostic

end DesignRecipe

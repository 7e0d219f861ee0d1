import DesignRecipe.Disk
import DesignRecipe.Host

/-!
# A machine

A model of the surroundings of a run: files, an input to take answers from, and a record
of what has been written and asked.
-/

namespace DesignRecipe

/-- Something that is seen from outside. -/
inductive Event
  /-- A result was written. -/
  | out (text : Text)
  /-- A report was written. -/
  | err (text : Text)
  /-- A question was put, and this was the line that answered it. -/
  | asked (question : Text) (answer : RawText)
deriving DecidableEq, Repr

namespace Event

/-- What an event writes to the channel of results. -/
def output : Event → Text
  | .out text => text
  | _ => []

/-- What an event writes to the channel of reports, where questions are put too. -/
def report : Event → Text
  | .out _ => []
  | .err text => text
  | .asked question _ => question

end Event

/-- Files, what is still to be read of the answers, and what has happened, in order. -/
structure Machine where
  disk : Disk
  input : RawText
  events : List Event

namespace Machine

/-- All that has been written to the channel of results. -/
def output (m : Machine) : Text := m.events.flatMap Event.output

/-- All that has been written to the channel of reports. -/
def report (m : Machine) : Text := m.events.flatMap Event.report

/-- What ends a line of the input. -/
abbrev lineFeed : RawChar := .char '\n'

/-- The first line of an input, with its line feed if it has one, and what follows. -/
def firstLine : RawText → RawText × RawText
  | [] => ([], [])
  | c :: rest =>
    if c = lineFeed then ([c], rest)
    else
      let (line, more) := firstLine rest
      (c :: line, more)

/-- The machine after an event. -/
def record (m : Machine) (e : Event) : Machine := { m with events := m.events ++ [e] }

/-- What a line of the input says, if it is a text. -/
def said (line : RawText) : Except FileError Text :=
  match RawText.text? line with
  | some s => .ok s
  | none => .error .notText

/-- The machine after a question: the next line of the input answers it, and is used up even
if it is no text. -/
def answer (m : Machine) (question : Text) : Except FileError Text × Machine :=
  let (line, rest) := firstLine m.input
  (said line, { m with input := rest }.record (.asked question line))

/-- The machine after a text has been written to a file, if it can be. -/
def write (m : Machine) (path : RawText) (s : Text) : Except FileError Unit × Machine :=
  match m.disk.write path s with
  | .ok disk => (.ok (), { m with disk })
  | .error e => (.error e, m)

instance : Host (StateM Machine) where
  isDirectory path := fun m => (m.disk.isDirectory path, m)
  isFile path := fun m => (m.disk.isFile path, m)
  occupied path := fun m => (m.disk.occupied path, m)
  read path := fun m => (m.disk.read path, m)
  write path s := fun m => m.write path s
  filesBelow path := fun m => (m.disk.filesBelow path, m)
  ask question := fun m => m.answer question
  out text := fun m => ((), m.record (.out text))
  err text := fun m => ((), m.record (.err text))

end Machine

end DesignRecipe

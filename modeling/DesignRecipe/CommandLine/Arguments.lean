import DesignRecipe.CommandLine.Command

/-!
# Arguments of the command line

Arguments are read one by one, from the first to the last, and each is settled before
the next is looked at. A reading may stop before the last argument: at the first one
that is refused, or at the first that asks for help or the version. So `-V` wins over
whatever follows it, and a fault wins over a later `-h`. Only what is missing altogether,
a verb or a path, is found at the end.

After `--` every argument is an operand, and no value of a switch. An argument need not be a
text, but only paths are taken as they are: no switch, verb or format has such a name.
-/

namespace DesignRecipe.CommandLine

/-! ### Readings that stop -/

/-- What stops a reading before the last argument. -/
inductive Stop
  /-- An argument is refused. -/
  | refused (reason : Misuse)
  /-- Help or the version is asked for. -/
  | answered (command : Command)
deriving DecidableEq, Repr

/-- The reading stops at a fault. -/
def refuse {α : Type} (reason : Misuse) : Except Stop α := .error (.refused reason)

/-- The reading stops at a question. -/
def answer {α : Type} (command : Command) : Except Stop α := .error (.answered command)

/-- Rejects a switch that has been given before. -/
def once (s : Switch) (before : Bool) : Except Stop Unit :=
  if before then refuse (.repeated s) else .ok ()

/-- Rejects the empty path. -/
def pathOf (value : RawText) : Except Stop RawText :=
  if value.isEmpty then refuse .emptyValue else .ok value

/-- The format of a name. -/
def formatOf (value : RawText) : Except Stop Format :=
  match RawText.text? value with
  | none => refuse .notText
  | some name =>
    if name = "text".toList then .ok .text
    else if name = "json".toList then .ok .json
    else if name = "json-pretty".toList then .ok .jsonPretty
    else refuse (.unknownFormat name)

/-! ### What has been given -/

/-- The switches and the path that have been given. -/
structure Given where
  verbose : Bool := false
  output? : Option RawText := none
  config? : Option RawText := none
  force : Bool := false
  format? : Option Format := none
  path? : Option RawText := none
deriving DecidableEq, Repr

namespace Given

/-- **Takes a switch** with its value, which is empty for a switch that has none. -/
def takeSwitch (g : Given) : Switch → RawText → Except Stop Given
  | .help, _ => answer .help
  | .version, _ => answer .version
  | .verbose, _ => do
    once .verbose g.verbose
    return { g with verbose := true }
  | .force, _ => do
    once .force g.force
    return { g with force := true }
  | .output, value => do
    once .output g.output?.isSome
    return { g with output? := some (← pathOf value) }
  | .config, value => do
    once .config g.config?.isSome
    return { g with config? := some (← pathOf value) }
  | .format, value => do
    once .format g.format?.isSome
    return { g with format? := some (← formatOf value) }

/-- Takes an operand, which can only be the path of a verb that is about one. -/
def takeOperand (v : Verb) (g : Given) (operand : RawText) : Except Stop Given :=
  if v.hasPath && g.path?.isNone then do return { g with path? := some (← pathOf operand) }
  else refuse (.unexpectedOperand (RawText.shown operand))

end Given

/-! ### Reading one argument -/

/-- A reading in progress. -/
structure Reading where
  given : Given := {}
  /-- The switch whose value is the next argument. -/
  awaiting? : Option Switch := none
  /-- Whether `--` has been read. -/
  operandsOnly : Bool := false
deriving DecidableEq, Repr

/-- Splits an argument at its first equals sign. -/
def splitAssignment (s : RawText) : RawText × Option RawText :=
  let name := s.takeWhile (· != RawChar.char '=')
  match s.drop name.length with
  | [] => (name, none)
  | _ :: value => (name, some value)

/-- The argument that makes operands of all that follow. -/
def dashes : RawText := [.char '-', .char '-']

/-- Whether an argument has switches, or is `--`. -/
def isSwitch : RawText → Bool
  | .char '-' :: _ :: _ => true
  | _ => false

namespace Reading

/-- Takes a switch with the value that is attached to it. -/
def supply (r : Reading) (s : Switch) (value : RawText) : Except Stop Reading :=
  (r.given.takeSwitch s value).map fun g => { r with given := g, awaiting? := none }

/-- Reads a switch in its long form, without the dashes. -/
def takeLong (allowed : List Switch) (r : Reading) (s : RawText) : Except Stop Reading :=
  let (name, value?) := splitAssignment s
  match allowed.find? fun w => RawText.ofText w.longName == name with
  | none => refuse (.unknownSwitch (RawText.shown s))
  | some w =>
    match w.hasValue, value? with
    | true, some value => r.supply w value
    | true, none => .ok { r with awaiting? := some w }
    | false, none => r.supply w []
    | false, some _ => refuse (.unexpectedValue w)

/-- Reads the letters after one dash. What follows the letter of a switch with a value
is the value, an equals sign between them aside. -/
def takeLetters (allowed : List Switch) (r : Reading) : RawText → Except Stop Reading
  | [] => .ok r
  | c :: rest =>
    match allowed.find? fun w => w.letter?.map RawChar.char == some c with
    | none => refuse (.unknownSwitch (RawText.shown (c :: rest)))
    | some w =>
      if w.hasValue then
        match rest with
        | [] => .ok { r with awaiting? := some w }
        | .char '=' :: value => r.supply w value
        | value => r.supply w value
      else do takeLetters allowed (← r.supply w []) rest

/-- Reads an argument that has switches. -/
def takeSwitches (allowed : List Switch) (r : Reading) : RawText → Except Stop Reading
  | .char '-' :: .char '-' :: s => r.takeLong allowed s
  | s => r.takeLetters allowed (s.drop 1)

/-- **Reads one argument** after a verb. -/
def step (v : Verb) (r : Reading) (argument : RawText) : Except Stop Reading :=
  match r.awaiting? with
  | some s => if isSwitch argument then refuse (.missingValue s) else r.supply s argument
  | none =>
    if r.operandsOnly || !isSwitch argument then
      (r.given.takeOperand v argument).map fun g => { r with given := g }
    else if argument = dashes then .ok { r with operandsOnly := true }
    else r.takeSwitches v.switches argument

/-- Ends a reading after a verb. No value may be outstanding. -/
def finish (r : Reading) : Except Stop Given :=
  match r.awaiting? with
  | some s => refuse (.missingValue s)
  | none => .ok r.given

end Reading

/-! ### Reading all arguments -/

/-- The file that standard settings are written to if none is given. -/
def standardSettingsFile : Text := "drcop.toml"

/-- The command of a verb with what is given after it. -/
def Verb.command (v : Verb) (g : Given) : Except Stop Command :=
  match v, g.path? with
  | .init, _ => .ok (.init (g.output?.getD standardSettingsFile))
  | _, none => refuse .missingOperand
  | .generate, some path =>
    .ok (.generate path g.output? g.config? g.force (g.format?.getD .text))
  | .check, some path => .ok (.check path g.config? (g.format?.getD .text))

/-- The command that arguments after a verb ask for. -/
def Verb.read (v : Verb) (arguments : List RawText) : Except Stop Command := do
  let r ← arguments.foldlM (Reading.step v) {}
  v.command (← r.finish)

/-- The verb of an argument. -/
def verbOf? (argument : RawText) : Option Verb := (RawText.text? argument).bind Verb.ofName?

/-- What `help` explains: the program, or one command. -/
def readHelp : List RawText → Except Stop Command
  | [] => answer .help
  | name :: rest =>
    if (verbOf? name).isSome || name = RawText.ofText "help" then
      match rest with
      | [] => answer .help
      | other :: _ => refuse (.unexpectedOperand (RawText.shown other))
    else refuse (.unexpectedOperand (RawText.shown name))

/-- The command that a name and the arguments after it ask for. -/
def readNamed (name : RawText) (rest : List RawText) : Except Stop Command :=
  match verbOf? name with
  | some v => v.read rest
  | none =>
    if name = RawText.ofText "help" then readHelp rest
    else refuse (.unexpectedOperand (RawText.shown name))

/-- What is wrong with a reading that ends before a verb. -/
def Reading.withoutVerb (r : Reading) : Misuse :=
  if r.given.verbose then .missingVerb else .nothing

/-- The command that arguments ask for, given what has been read before the verb. -/
def readFrom (r : Reading) : List RawText → Except Stop Command
  | [] => refuse r.withoutVerb
  | argument :: rest =>
    if argument = dashes then
      match rest with
      | [] => refuse r.withoutVerb
      | operand :: _ => refuse (.unexpectedOperand (RawText.shown operand))
    else if isSwitch argument then do readFrom (← r.takeSwitches commonSwitches argument) rest
    else readNamed argument rest

/-- **The command that arguments ask for.** -/
def read (arguments : List RawText) : Except Misuse Command :=
  match readFrom {} arguments with
  | .ok command => .ok command
  | .error (.answered command) => .ok command
  | .error (.refused reason) => .error reason

end DesignRecipe.CommandLine

import DesignRecipe.Report
import DesignRecipe.Text.Raw

/-!
# Commands and switches

What can be asked for on the command line: the commands, the verbs that name them, the
switches that go with each verb, and the reasons to refuse arguments.
-/

namespace DesignRecipe.CommandLine

/-! ### Commands -/

/-- What can be asked for. -/
inductive Command
  /-- Make the files of the outlines at a path. -/
  | generate (path : RawText) (dir? config? : Option RawText) (force : Bool) (format : Format)
  /-- Report on the outlines at a path. -/
  | check (path : RawText) (config? : Option RawText) (format : Format)
  /-- Write the standard settings to a file. -/
  | init (path : RawText)
  /-- Explain the usage. -/
  | help
  /-- Tell the version. -/
  | version
deriving DecidableEq, Repr

/-- The names of the commands that do something. -/
inductive Verb
  | generate
  | check
  | init
deriving DecidableEq, Repr

namespace Verb

/-- The names of verbs. -/
def ofName? (s : Text) : Option Verb :=
  if s = "generate".toList then some .generate
  else if s = "check".toList then some .check
  else if s = "init".toList then some .init
  else none

/-- Whether the verb is about a path. -/
def hasPath : Verb → Bool
  | .generate | .check => true
  | .init => false

end Verb

/-! ### Switches -/

/-- The switches. -/
inductive Switch
  | verbose
  | help
  | version
  | output
  | config
  | force
  | format
deriving DecidableEq, Repr

/-- The switches that may stand before the verb. None of them has a value. -/
def commonSwitches : List Switch := [.verbose, .help, .version]

/-- The switches that may stand after a verb. -/
def Verb.switches : Verb → List Switch
  | .generate => [.verbose, .help, .output, .config, .force, .format]
  | .check => [.verbose, .help, .config, .format]
  | .init => [.verbose, .help, .output]

namespace Switch

/-- The name after two dashes. -/
def longName : Switch → Text
  | .verbose => "verbose"
  | .help => "help"
  | .version => "version"
  | .output => "output"
  | .config => "config"
  | .force => "force"
  | .format => "format"

/-- The letter after one dash. -/
def letter? : Switch → Option Char
  | .verbose => some 'v'
  | .help => some 'h'
  | .version => some 'V'
  | .output => some 'o'
  | .config => some 'c'
  | .force => none
  | .format => some 'f'

/-- Whether the switch has a value. -/
def hasValue : Switch → Bool
  | .output | .config | .format => true
  | .verbose | .help | .version | .force => false

end Switch

/-! ### What can be wrong -/

/-- A reason to refuse arguments. -/
inductive Misuse
  | unknownSwitch (argument : Text)
  | unexpectedValue (s : Switch)
  | missingValue (s : Switch)
  | emptyValue
  | repeated (s : Switch)
  | unknownFormat (value : Text)
  /-- The argument is no text where it has to be one. -/
  | notText
  | unexpectedOperand (argument : Text)
  | missingOperand
  | missingVerb
  /-- Nothing is asked for at all. -/
  | nothing
deriving DecidableEq, Repr

/-- The wording of a refusal. -/
def Misuse.message : Misuse → Text
  | .unknownSwitch a => "unexpected argument '" ++ a ++ "' found"
  | .unexpectedValue s => "unexpected value for '--" ++ s.longName ++ "' found"
  | .missingValue s => "a value is required for '--" ++ s.longName ++ "' but none was supplied"
  | .emptyValue => "a value is required but none was supplied"
  | .repeated s => "the argument '--" ++ s.longName ++ "' cannot be used multiple times"
  | .unknownFormat v => "invalid value '" ++ v ++ "' for '--format'"
  | .notText => "invalid UTF-8 was detected in one or more arguments"
  | .unexpectedOperand a => "unexpected argument '" ++ a ++ "' found"
  | .missingOperand => "the following required arguments were not provided: <PATH>"
  | .missingVerb | .nothing => "a command is required but none was provided"

end DesignRecipe.CommandLine

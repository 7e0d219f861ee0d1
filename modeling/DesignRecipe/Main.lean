import DesignRecipe.CommandLine.Run

/-!
# The program

Files, standard input and the two output channels of the system, and the entry point of
the program. Nothing is decided here but whether output is coloured.
-/

namespace DesignRecipe.Program

/-! ### Files of the system -/

/-- A path of the system, as an entry of the working directory. Only paths that are texts can
be put to the system here, and it answers with names that are texts. -/
def entry (path : RawText) : IO.FS.DirEntry := ⟨".", String.ofList (RawText.shown path)⟩

/-- The error of a file by what the system says of it. -/
def fileError (e : IO.Error) : FileError :=
  let reported (code : UInt32) (details : String) : FileError :=
    if code = 2 then .notFound
    else if code = 20 then .notADirectory
    else if code = 21 then .isADirectory
    else if code = 36 then .nameTooLong
    else .other (details.toList ++ " (os error " ++ Text.ofNat code.toNat ++ ")")
  match e with
  | .noFileOrDirectory _ code details | .inappropriateType _ code details
  | .invalidArgument _ code details | .permissionDenied _ code details
  | .resourceExhausted _ code details | .alreadyExists _ code details
  | .otherError code details => reported code details
  | e => .other (toString e)

/-- The error that a path has before the system is asked. -/
def pathError? (path : RawText) : Option FileError :=
  if RawChar.char '\x00' ∈ path then some .badName else if path = [] then some .notFound else none

/-- Whether there is something of a kind under a path. -/
def hasKind (accepts : IO.FS.FileType → Bool) (path : RawText) : IO Bool := do
  if (pathError? path).isSome then return false
  try return accepts (← (entry path).path.metadata).type
  catch _ => return false

/-- The text of a file. -/
def readText (path : RawText) : IO (Except FileError Text) := do
  if let some e := pathError? path then return .error e
  try
    match String.fromUTF8? (← IO.FS.readBinFile (entry path).path) with
    | some s => return .ok s.toList
    | none => return .error .notText
  catch e => return .error (fileError e)

/-- Writes a text to a file. -/
def writeText (path : RawText) (s : Text) : IO (Except FileError Unit) := do
  if let some e := pathError? path then return .error e
  try
    IO.FS.writeFile (entry path).path (String.ofList s)
    return .ok ()
  catch e => return .error (fileError e)

/-- The files below an entry by the names on the way to them. Links on the way are not
followed, and what cannot be looked at is passed over. -/
partial def filesUnder (e : IO.FS.DirEntry) (isRoot : Bool) : IO (List (List RawText)) := do
  try
    let kind := (← if isRoot then e.path.metadata else e.path.symlinkMetadata).type
    match kind with
    | .file => return [[]]
    | .dir =>
      let below ← (← e.path.readDir).toList.mapM fun inner => do
        return (← filesUnder inner false).map (RawText.ofText inner.fileName.toList :: ·)
      return below.flatten
    | _ => return []
  catch _ => return []

/-! ### Channels -/

/-- The bytes of a channel up to its next line feed, after those that have been read. -/
partial def readLine (channel : IO.FS.Stream) (front : ByteArray) : IO ByteArray := do
  let next ← channel.read 1
  let line := front ++ next
  if next.isEmpty || next.toList = [10] then return line else readLine channel line

/-- The next line of a channel, if it is a text. -/
def readAnswer (channel : IO.FS.Stream) : IO (Except FileError Text) := do
  try
    match String.fromUTF8? (← readLine channel .empty) with
    | some s => return .ok s.toList
    | none => return .error .notText
  catch e => return .error (fileError e)

/-- Writes a text to a channel at once. -/
def emit (channel : IO.FS.Stream) (s : Text) : IO Unit := do
  channel.putStr (String.ofList s)
  channel.flush

instance : Host IO where
  isDirectory := hasKind fun kind => kind matches .dir
  isFile := hasKind fun kind => kind matches .file
  occupied := hasKind fun _ => true
  read := readText
  write := writeText
  filesBelow path := do
    if (pathError? path).isSome then return []
    filesUnder (entry path) true
  ask question := do
    emit (← IO.getStderr) question
    readAnswer (← IO.getStdin)
  out s := do emit (← IO.getStdout) s
  err s := do emit (← IO.getStderr) s

/-! ### Colours -/

/-- Whether output is coloured: a variable that forces colours comes first, then one
that forbids them, and else they are for terminals. -/
def wantsColor (force forbid allow : Option String) (terminal : Bool) : Bool :=
  if force.any (· != "0") then true
  else if forbid.isSome then false
  else allow.all (· != "0") && terminal

/-- Whether the output of this run is coloured. -/
def coloredOutput : IO Bool := do
  return wantsColor (← IO.getEnv "CLICOLOR_FORCE") (← IO.getEnv "NO_COLOR")
    (← IO.getEnv "CLICOLOR") (← (← IO.getStdout).isTty)

end DesignRecipe.Program

/-- Runs the program on the arguments of the command line. -/
def main (arguments : List String) : IO UInt32 := do
  let colored ← DesignRecipe.Program.coloredOutput
  let status ← DesignRecipe.CommandLine.run colored
    (arguments.map fun a => DesignRecipe.RawText.ofText a.toList)
  return status.toUInt32

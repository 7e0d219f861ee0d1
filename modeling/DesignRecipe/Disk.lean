import DesignRecipe.Failure
import DesignRecipe.Path

/-!
# Files and directories

A tree of files and directories with a working directory in it, and what it means to
follow a path, to read a file and to write one. A path is followed name by name, and
every name, even an empty one or a `.`, needs a directory to stand in: so a slash after
the name of a file leads nowhere.

| the path | leads |
|---|---|
| is empty | nowhere: nothing is found |
| has a character that no name may have | nowhere: it is a bad name |
| starts with a slash | from the root |
| does not | from the working directory |
-/

namespace DesignRecipe

/-- What a file holds: a text, or bytes that are none. -/
inductive Content
  | text (s : Text)
  | binary (bytes : List UInt8)
deriving DecidableEq, Repr

/-- What bytes hold. -/
def Content.ofBytes (bytes : List UInt8) : Content :=
  match String.fromUTF8? ⟨bytes.toArray⟩ with
  | some s => .text s
  | none => .binary bytes

/-- A file, or a directory with its entries by name. A name can be anything that the system
allows, text or not. -/
inductive Node
  | file (content : Content)
  | directory (entries : List (RawText × Node))

namespace Node

/-- The entry with a name. -/
def child? (name : RawText) : List (RawText × Node) → Option Node
  | [] => none
  | (n, node) :: rest => if n = name then some node else child? name rest

/-- The entries after one of them has been added or replaced. -/
def setEntry (name : RawText) (node : Node) : List (RawText × Node) → List (RawText × Node)
  | [] => [(name, node)]
  | (n, old) :: rest =>
    if n = name then (name, node) :: rest else (n, old) :: setEntry name node rest

/-- Setting an entry changes that entry alone. -/
theorem child?_setEntry (name other : RawText) (node : Node) (entries : List (RawText × Node)) :
    child? other (setEntry name node entries) =
      if other = name then some node else child? other entries := by
  induction entries with
  | nil => by_cases h : name = other <;> simp [setEntry, child?, h, eq_comm]
  | cons entry rest ih =>
    obtain ⟨n, old⟩ := entry
    by_cases hn : n = name
    · by_cases ho : other = name
      · simp [setEntry, child?, hn, ho]
      · have ho' : ¬name = other := fun e => ho e.symm
        simp [setEntry, child?, hn, ho, ho']
    · by_cases ho : n = other
      · subst ho
        simp [setEntry, child?, hn]
      · simp [setEntry, child?, hn, ho, ih]

/-- The entries of a directory. A file has none. -/
def entries : Node → List (RawText × Node)
  | .file _ => []
  | .directory entries => entries

/-- **The node at a place**, which is given by the names on the way to it. -/
def find? : List RawText → Node → Option Node
  | [], node => some node
  | name :: place, node => (child? name node.entries).bind (find? place)

/-- **The tree with a node at a place.** Missing directories on the way are made. -/
def insert (leaf : Node) : List RawText → Node → Node
  | [], _ => leaf
  | name :: place, node =>
    let inner := (child? name node.entries).getD (.directory [])
    .directory (setEntry name (insert leaf place inner) node.entries)

/-- What is put at a place is found there. -/
theorem find?_insert (leaf : Node) (place : List RawText) (node : Node) :
    (insert leaf place node).find? place = some leaf := by
  induction place generalizing node with
  | nil => rfl
  | cons name place ih => simp [insert, find?, entries, child?_setEntry, ih]

mutual

/-- **All files of a tree**, with their places. -/
def files : Node → List (List RawText × Content)
  | .file content => [([], content)]
  | .directory entries => filesIn entries

/-- All files below the entries of a directory. -/
def filesIn : List (RawText × Node) → List (List RawText × Content)
  | [] => []
  | (name, node) :: rest =>
    (files node).map (fun (place, content) => (name :: place, content)) ++ filesIn rest

end

/-- The bytes that a name may have at most. -/
def longestName : Nat := 255

/-- The bytes that a path may have at most. -/
def longestPath : Nat := 4095

/-- Follows names from a place. -/
def walk (root : Node) : List RawText → List RawText → Except FileError (List RawText)
  | place, [] => .ok place
  | place, name :: rest =>
    match root.find? place with
    | some (.directory entries) =>
      if name = [] ∨ name = Path.dot then walk root place rest
      else if name = Path.dots then walk root place.dropLast rest
      else if longestName < (RawText.octets name).length then .error .nameTooLong
      else if (child? name entries).isNone then .error .notFound
      else walk root (place ++ [name]) rest
    | some (.file _) => .error .notADirectory
    | none => .error .notFound

end Node

/-- A tree of files and directories, and the place of the working directory in it. -/
structure Disk where
  root : Node
  work : List RawText

namespace Disk

/-- The place that a path starts from. -/
def start (d : Disk) (path : RawText) : List RawText :=
  if path.head? = some Path.slash then [] else d.work

/-- Rejects paths that cannot be followed at all. -/
def checkPath (path : RawText) : Except FileError Unit :=
  if RawChar.char '\x00' ∈ path then .error .badName
  else if path = [] then .error .notFound
  else if Node.longestPath < (RawText.octets path).length then .error .nameTooLong
  else .ok ()

/-- **The place that a path leads to**, at which there is a node. -/
def locate (d : Disk) (path : RawText) : Except FileError (List RawText) := do
  checkPath path
  d.root.walk (d.start path) (Path.names path)

/-- The node that a path leads to. -/
def node? (d : Disk) (path : RawText) : Option Node :=
  match d.locate path with
  | .ok place => d.root.find? place
  | .error _ => none

/-- Whether a path leads to a directory. -/
def isDirectory (d : Disk) (path : RawText) : Bool :=
  match d.node? path with
  | some (.directory _) => true
  | _ => false

/-- Whether a path leads to a file. -/
def isFile (d : Disk) (path : RawText) : Bool :=
  match d.node? path with
  | some (.file _) => true
  | _ => false

/-- Whether a path leads anywhere. -/
def occupied (d : Disk) (path : RawText) : Bool := (d.node? path).isSome

/-- **Reads the text of a file.** -/
def read (d : Disk) (path : RawText) : Except FileError Text := do
  match d.root.find? (← d.locate path) with
  | some (.file (.text s)) => .ok s
  | some (.file (.binary _)) => .error .notText
  | some (.directory _) => .error .isADirectory
  | none => .error .notFound

/-- **The place that is written to under a path**: the last name may be new, the
directory that it stands in may not, and no directory is written to. -/
def target (d : Disk) (path : RawText) : Except FileError (List RawText) := do
  checkPath path
  let kept := path.reverse.dropWhile (· == Path.slash)
  let last := (kept.takeWhile (· != Path.slash)).reverse
  let front := (kept.dropWhile (· != Path.slash)).reverse
  let place ← d.root.walk (d.start path) (Path.names front)
  if last = [] ∨ last = Path.dot ∨ last = Path.dots ∨ path.getLast? = some Path.slash then
    .error .isADirectory
  else if Node.longestName < (RawText.octets last).length then .error .nameTooLong
  else
    match d.root.find? place with
    | some (.directory entries) =>
      match Node.child? last entries with
      | some (.directory _) => .error .isADirectory
      | _ => .ok (place ++ [last])
    | some (.file _) => .error .notADirectory
    | none => .error .notFound

/-- **Writes a text to a file**, whether there is one already or not. -/
def write (d : Disk) (path : RawText) (s : Text) : Except FileError Disk := do
  return { d with root := Node.insert (.file (.text s)) (← d.target path) d.root }

/-- The files below a directory, by the names on the way to them. The way from a file to
itself has no names. -/
def filesBelow (d : Disk) (path : RawText) : List (List RawText) :=
  match d.node? path with
  | some node => node.files.map Prod.fst
  | none => []

end Disk

end DesignRecipe

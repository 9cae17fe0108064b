import Dialects.Conversion.Registry
import Dialects.Editor.Document
import Dialects.Storage.Fault
import Dialects.Storage.Tree

/-!
# Files on disk

A host whose files are those of a tree. A file is read as a whole; what is written replaces it when
the writer ends, and not before. A watcher, which is made when somebody first asks for changes or
deletions, tells when a path has changed.
-/

namespace Dialects

/-- A file that has been opened by its path. -/
structure DiskFile where
  /-- The path. -/
  path : Path
  /-- Whether there is a watcher. -/
  watched : Bool
  /-- Who is told about its events. -/
  subscribers : Emitter FileSubscription
  deriving DecidableEq, Repr

/-- The state of a host on disk. -/
structure Directory where
  /-- The folders and files. -/
  tree : Tree
  /-- The files that have been opened, by number. -/
  files : List DiskFile
  /-- The operations that the disk refuses. -/
  refused : List FileFault
  /-- The converters. -/
  registry : Registry Recipe ConverterSet

namespace Directory

/-- A host on a tree that refuses nothing. -/
def ofTree (tree : Tree) (registry : Registry Recipe ConverterSet) : Directory :=
  ⟨tree, [], [], registry⟩

/-- A file by its number. -/
def file (n : Nat) : Action Directory DiskFile := do
  match (← .ask Directory.files)[n]? with
  | some f => pure f
  | none => throw (.badIndex "no such file")

/-- Changes a file. -/
def modifyFile (n : Nat) (f : DiskFile → DiskFile) : Action Directory Unit :=
  .change fun s => { s with files := s.files.modify n f }

/-- The path of a file. -/
def path (n : Nat) (s : Directory) : Path := (s.files[n]?.map DiskFile.path).getD (.ofString "")

/-- Whether the disk refuses an operation. -/
def refuses (fault : FileFault) : Action Directory Bool := .ask fun s => s.refused.contains fault

/-- The chunks of a file: its text, or none if it is empty. -/
def read (n : Nat) : Action Directory (List Text) := do
  let p := (← file n).path
  match (← .ask Directory.tree).find? p with
  | none => throw (.missingFile p.toString)
  | some .folder => throw (.storage ("Cannot open for read: " ++ p.toString))
  | some (.file content) =>
    if ← refuses .read then throw (.storage ("Cannot open for read: " ++ p.toString))
    match Utf8.decode content with
    | .error fault => throw (.undecodable fault)
    | .ok [] => pure []
    | .ok t => pure [t]

/-- The place that is written when a file is. -/
def target (n : Nat) : Action Directory Location := do
  let p := (← file n).path
  match (← .ask Directory.tree).writable? p, ← refuses .openWrite with
  | some place, false => pure place
  | _, _ => throw (.storage ("Cannot open for write: " ++ p.toString))

/-- Encodes a piece of text that is written to a file. -/
def encode (n : Nat) (t : Text) : Action Directory Bytes := do
  match Utf8.encode t with
  | .error fault => throw (.unencodable fault)
  | .ok bytes =>
    if ← refuses .write then throw (.storage ("Write failed for: " ++ (← file n).path.toString))
    pure bytes

/-- Replaces a file by a text. -/
def commit (n : Nat) (t : Text) : Action Directory Unit := do
  -- The folder may have gone since the writer was opened.
  let place ← target n
  let bytes ← encode n t
  if ← refuses .commit then throw (.storage ("Commit failed for: " ++ (← file n).path.toString))
  .change fun s => { s with tree := s.tree.insert place (.file bytes) }

/-- The operations on files. -/
def fileOperations : Files Directory where
  path n s := (path n s).toString
  read := read
  openWrite n := do
    let _ ← target n
  write n t := do
    let _ ← encode n t
  commit := commit

/-- Opens a file by its path, whether or not it is there. -/
def openFile (p : String) : Action Directory Nat := do
  let n := (← .ask Directory.files).length
  .change fun s => { s with files := s.files ++ [⟨.ofString p, false, .empty⟩] }
  pure n

/-- Whether something stands under the path of a file. -/
def isPresent (n : Nat) : Action Directory Bool := do
  return (← .ask Directory.tree).contains (← file n).path

/-- Subscribes to an event of a file. Only a watcher notices changes and deletions. -/
def subscribe (n : Nat) (s : FileSubscription) : Action Directory Unit :=
  modifyFile n fun f =>
    { f with watched := f.watched || s.event ≠ .renamed, subscribers := f.subscribers.subscribe s }

/-- Takes a subscription back. -/
def unsubscribe (n : Nat) (s : FileSubscription) : Action Directory Unit :=
  modifyFile n fun f => { f with subscribers := f.subscribers.unsubscribe s }

/-- Who has to be told about an event of a file. -/
def audience (n : Nat) (e : FileEvent) : Action Directory (List FileSubscription) := do
  return (← file n).subscribers.callbacks.filter (·.event = e)

/-- Renames a file. From then on it is watched. -/
def rename (n : Nat) (newPath : String) : Action Directory Unit := do
  let p := (← file n).path
  let q := Path.ofString newPath
  match (← .ask Directory.tree).rename? p q with
  | none => throw (.storage ("Cannot rename " ++ p.toString ++ " to " ++ q.toString))
  | some tree =>
    .change fun s => { s with tree }
    modifyFile n fun f => { f with path := q, watched := true }

/-- What the watcher of a file, if there is one, makes of the news that something has happened to a
path. -/
def notice (n : Nat) (p : String) : Action Directory (Option FileEvent) := do
  let f ← file n
  if !f.watched || f.path.toString ≠ p then return none
  return some (if ← isPresent n then .changed else .deleted)

/-- Follows a recipe. -/
def build (recipe : Recipe) : Action Directory ConverterSet := .ofExcept recipe

/-- The converter set of a language. -/
def converters (language : String) : Action Directory ConverterSet := do
  let r ← .ask Directory.registry
  let (set, r') ← r.request build language
  .change fun s => { s with registry := r' }
  pure set

/-- The host on disk. -/
def host : Host Directory ConverterSet where
  files := fileOperations
  converters := converters
  convert set d t := .ofExcept (set.convert d t)
  checkModified _ := pure ()
  checkEdit _ := pure ()
  checkLoad _ := pure ()

end Directory

end Dialects

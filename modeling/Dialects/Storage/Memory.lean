import Dialects.Conversion.Registry
import Dialects.Editor.Document
import Dialects.Storage.Fault

/-!
# Storage in memory

A host whose files are kept in memory and which can be told to fail. Opening a file for writing
wipes it at once, as an editor may do that truncates a file when it is opened; what is written is
stored when the writer ends. Conversions can be told to fail as well, and all that are tried are
recorded.
-/

namespace Dialects

/-- The failure of an operation that has been told to fail. -/
def FileFault.failure : FileFault → Failure
  | .openWrite => .storage "open failed"
  | .write => .storage "write failed"
  | .commit => .storage "end failed"
  | .read => .storage "read failed"

/-- An operation on a document that can be told to fail. -/
inductive DocumentFault where
  /-- Loading. -/
  | load
  /-- Telling whether it is modified. -/
  | isModified
  /-- Replacing the text. -/
  | setText
  deriving DecidableEq, Repr

/-- The failure of an operation that has been told to fail. -/
def DocumentFault.failure : DocumentFault → Failure
  | .load => .storage "load failed"
  | .isModified => .storage "is_modified failed"
  | .setText => .storage "set_text failed"

/-- A file in memory. -/
structure MemoryFile where
  /-- The path under which its text is stored. -/
  path : String
  /-- The chunks that reading yields, if they do not come from the store. -/
  chunks : Option (List Text)
  /-- The operations that fail. -/
  faults : List FileFault
  /-- How often it has been opened for writing. -/
  opens : Nat
  /-- Who is told about its events. -/
  subscribers : Emitter FileSubscription
  deriving DecidableEq, Repr

/-- The state of a host in memory. -/
structure Memory where
  /-- The stored texts by path. -/
  disk : List (String × Text)
  /-- The files by number. -/
  files : List MemoryFile
  /-- The documents, by number, whose operations fail. -/
  documentFaults : List (Nat × DocumentFault)
  /-- The documents that have been loaded, one entry for each time. -/
  loads : List Nat
  /-- The conversions that fail, by language and direction. -/
  broken : List ((String × Direction) × Failure)
  /-- The conversions that have been tried, first one first. -/
  calls : List (String × Direction)
  /-- The converters. -/
  registry : Registry Recipe ConverterSet

namespace Memory

/-- A table with a new entry in place of those of the same key. -/
def update {α β : Type} [DecidableEq α] (key : α) (value : β) (table : List (α × β)) :
    List (α × β) :=
  if table.any fun e => e.1 = key then table.map fun e => if e.1 = key then (key, value) else e
  else table ++ [(key, value)]

/-- A list with an entry, or without it. -/
def toggle {α : Type} [DecidableEq α] (on : Bool) (a : α) (l : List α) : List α :=
  if on then (if l.contains a then l else l ++ [a]) else l.filter (· ≠ a)

/-- A file by its number. -/
def file (n : Nat) : Action Memory MemoryFile := do
  match (← .ask Memory.files)[n]? with
  | some f => pure f
  | none => throw (.badIndex "no such file")

/-- Changes a file. -/
def modifyFile (n : Nat) (f : MemoryFile → MemoryFile) : Action Memory Unit :=
  .change fun m => { m with files := m.files.modify n f }

/-- Stores a text. -/
def put (path : String) (text : Text) : Action Memory Unit :=
  .change fun m => { m with disk := update path text m.disk }

/-- Fails if the operation of a file has been told to. -/
def check (n : Nat) (fault : FileFault) : Action Memory Unit := do
  if (← file n).faults.contains fault then throw fault.failure

/-- Fails if the operation of a document has been told to. -/
def checkDocument (d : Nat) (fault : DocumentFault) : Action Memory Unit := do
  if (← .ask Memory.documentFaults).contains (d, fault) then throw fault.failure

/-- The operations on files. -/
def fileOperations : Files Memory where
  path n m := (m.files[n]?.map MemoryFile.path).getD ""
  read n := do
    check n .read
    let f ← file n
    match f.chunks with
    | some cs => pure cs
    | none =>
      match (← .ask Memory.disk).lookup f.path with
      | some (c :: t) => pure [c :: t]
      | _ => pure []
  openWrite n := do
    check n .openWrite
    put (← file n).path []
    modifyFile n fun f => { f with opens := f.opens + 1 }
  write n _ := check n .write
  commit n t := do
    check n .commit
    put (← file n).path t

/-- Follows a recipe. -/
def build (recipe : Recipe) : Action Memory ConverterSet := .ofExcept recipe

/-- The converter set of a language. -/
def converters (language : String) : Action Memory ConverterSet := do
  let r ← .ask Memory.registry
  let (set, r') ← r.request build language
  .change fun m => { m with registry := r' }
  pure set

/-- Tries a conversion. -/
def convert (set : ConverterSet) (d : Direction) (t : Text) : Action Memory Text := do
  let key := (set.language, d)
  .change fun m => { m with calls := m.calls ++ [key] }
  match (← .ask Memory.broken).lookup key with
  | some f => throw f
  | none => .ofExcept (set.convert d t)

/-- The host in memory. -/
def host : Host Memory ConverterSet where
  files := fileOperations
  converters := converters
  convert := convert
  checkModified d := checkDocument d .isModified
  checkEdit d := checkDocument d .setText
  checkLoad d := do
    .change fun m => { m with loads := m.loads ++ [d] }
    checkDocument d .load

end Memory

end Dialects

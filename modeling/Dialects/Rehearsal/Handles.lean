import Dialects.Conversion.Simple
import Dialects.Storage.Memory

/-!
# Rehearsing handles

Handles on files in memory are made, mapped and forwarded under names, and read and written.
-/

namespace Dialects.Rehearsal

open Streams

/-- What a mapped handle of a rehearsal is bound to. -/
structure NamedBinding where
  /-- The name under which saves are logged. -/
  name : String
  /-- The conversion of what is read. -/
  toLenient : Conversion
  /-- The conversion of what is written. -/
  toCanonical : Conversion
  /-- Whether successful saves are logged too. -/
  tellsSuccess : Bool
  deriving DecidableEq, Repr

/-- An entry of the log. -/
inductive HandleMark where
  /-- A save failed. -/
  | failed (name : String) (failure : Failure)
  /-- A save succeeded. -/
  | stored (name : String)
  /-- An event was announced with these arguments. -/
  | event (name : String) (args : List String)

/-- A handle with its name and the name of the handle it was mapped from, or its own. -/
structure NamedHandle where
  /-- The name. -/
  name : String
  /-- The handle. -/
  handle : Handle NamedBinding
  /-- The name of the handle from which it was made, or its own. -/
  madeFrom : String

/-- Files in memory and the handles on them. -/
structure Shelf where
  /-- The storage. -/
  memory : Memory
  /-- The handles. -/
  handles : List NamedHandle
  /-- The subscriptions by name: the file and the subscription. -/
  subscriptions : List (String × Nat × FileSubscription)
  /-- What has been logged. -/
  log : List HandleMark

namespace Shelf

/-- A shelf with one handle on each file. -/
def setUp (disk : List (String × Text)) (files : List (String × String × Option (List Text))) :
    Shelf where
  memory :=
    ⟨disk, files.map fun f => ⟨f.2.1, f.2.2, [], 0, .empty⟩, [], [], [], [], .empty⟩
  handles := files.mapIdx fun i f => ⟨f.1, .file i, f.1⟩
  subscriptions := []
  log := []

/-- An action on the storage. -/
def inMemory {α : Type} (a : Action Memory α) : Action Shelf α :=
  a.on Shelf.memory fun m s => { s with memory := m }

/-- Leaves a mark in the log. -/
def mark (m : HandleMark) : Action Shelf Unit := .change fun s => { s with log := s.log ++ [m] }

/-- The files. -/
def files : Files Shelf :=
  let ops := Memory.fileOperations
  { path := fun n s => ops.path n s.memory
    read := fun n => inMemory (ops.read n)
    openWrite := fun n => inMemory (ops.openWrite n)
    write := fun n t => inMemory (ops.write n t)
    commit := fun n t => inMemory (ops.commit n t) }

/-- What bindings mean. -/
def mapping : Mapping Shelf NamedBinding where
  convert b d t :=
    match d with
    | .toLenient => .ofExcept (b.toLenient.apply t)
    | .toCanonical | .normalize => .ofExcept (b.toCanonical.apply t)
  listener b :=
    { onError := fun f => mark (.failed b.name f)
      onSuccess := if b.tellsSuccess then mark (.stored b.name) else pure () }

/-- A handle by its name. -/
def find (name : String) : Action Shelf NamedHandle := do
  match (← .ask Shelf.handles).find? (·.name = name) with
  | some h => pure h
  | none => throw (.missingKey name)

/-- Puts a handle under a name. -/
def put (h : NamedHandle) : Action Shelf Unit :=
  .change fun s => { s with handles := s.handles.filter (·.name ≠ h.name) ++ [h] }

/-- Makes a mapped handle. -/
def map (name : String) (b : NamedBinding) : Action Shelf Unit := do
  let h ← find name
  put ⟨b.name, .mapped h.handle b, h.name⟩

/-- Makes a forwarding handle. -/
def forward (name newName : String) : Action Shelf Unit := do
  let h ← find name
  put ⟨newName, .forwarding h.handle, newName⟩

/-- The chunks that a handle reads. -/
def read (name : String) : Action Shelf (List Text) := do
  (← find name).handle.read files mapping

/-- Writes pieces of text through a handle. -/
def write (name : String) (pieces : List Text) : Action Shelf Unit := do
  ((← find name).handle.sink files mapping).store pieces

/-- Subscribes to an event of the file behind a handle. -/
def subscribe (name : String) (event : FileEvent) (subscription : String) : Action Shelf Unit := do
  let n := (← find name).handle.base
  let sub : FileSubscription := ⟨event, (← .ask Shelf.subscriptions).length, subscription⟩
  inMemory (Memory.modifyFile n fun f => { f with subscribers := f.subscribers.subscribe sub })
  .change fun s => { s with subscriptions := (subscription, n, sub) :: s.subscriptions }

/-- Takes a subscription back. -/
def unsubscribe (subscription : String) : Action Shelf Unit := do
  match (← .ask Shelf.subscriptions).lookup subscription with
  | none => throw (.missingKey subscription)
  | some (n, sub) =>
    inMemory (Memory.modifyFile n fun f => { f with subscribers := f.subscribers.unsubscribe sub })

/-- Announces an event of the file behind a handle. -/
def fire (name : String) (event : FileEvent) (args : List String) : Action Shelf Unit := do
  let n := (← find name).handle.base
  let f ← inMemory (Memory.file n)
  (f.subscribers.callbacks.filter (·.event = event)).forM fun sub => mark (.event sub.name args)

/-- Tells an operation of the file behind a handle to fail, or not to. -/
def setFault (name : String) (fault : FileFault) (on : Bool) : Action Shelf Unit := do
  let n := (← find name).handle.base
  inMemory (Memory.modifyFile n fun f => { f with faults := Memory.toggle on fault f.faults })

/-- Whether there is a text under the path of a handle. -/
def pathExists (s : Shelf) (h : NamedHandle) : Bool :=
  (s.memory.disk.lookup (files.path h.handle.base s)).isSome

end Shelf

end Dialects.Rehearsal

import Dialects.Storage.Memory

/-!
# Rehearsing a writer

A transactional writer is used step by step on a file in memory. Everything that it gives to its
conversion and everything that its listener is told is recorded.
-/

namespace Dialects.Rehearsal

open Streams

/-- What is used: a file in memory, and records of what happened. -/
structure Desk where
  /-- The storage, with a single file. -/
  memory : Memory
  /-- The texts that have been given to the conversion. -/
  converted : List Text
  /-- What the listener has been told: a failure, or that a text was stored. -/
  told : List (Option Failure)

/-- How the writer is set up. -/
structure WriterSettings where
  /-- The conversion. -/
  conversion : Convert
  /-- Whether the listener is told about success. -/
  tellsSuccess : Bool
  /-- Whether the listener fails when it is told about success. -/
  successFails : Bool

namespace WriterSettings

/-- The conversion, which records what it is given. -/
def convert (w : WriterSettings) (t : Text) : Action Desk Text := do
  .change fun d => { d with converted := d.converted ++ [t] }
  .ofExcept (w.conversion t)

/-- The file in memory. -/
def sink : Sink Desk :=
  let inMemory {α : Type} (a : Action Memory α) : Action Desk α :=
    a.on Desk.memory fun m d => { d with memory := m }
  let k := Memory.fileOperations.sink 0
  { path := fun d => k.path d.memory
    openWrite := inMemory k.openWrite
    write := fun t => inMemory (k.write t)
    commit := fun t => inMemory (k.commit t) }

/-- The listener, which records what it is told. -/
def listener (w : WriterSettings) : Listener Desk where
  onError f := .change fun d => { d with told := d.told ++ [some f] }
  onSuccess :=
    if w.tellsSuccess then do
      .change fun d => { d with told := d.told ++ [none] }
      if w.successFails then throw (.interrupted "on_success failed")
    else pure ()

/-- Uses the writer once. -/
def use (w : WriterSettings) (u : Transaction.Use) : Action (Transaction × Desk) Unit :=
  Transaction.use w.convert sink w.listener u

end WriterSettings

namespace Desk

/-- A desk with one file. -/
def setUp (path : String) (content : Text) (faults : List FileFault) : Desk :=
  ⟨⟨[(path, content)], [⟨path, none, faults, 0, .empty⟩], [], [], [], [], .empty⟩, [], []⟩

/-- The text stored under a path. -/
def content (path : String) (d : Desk) : Option Text := d.memory.disk.lookup path

/-- How often the file has been opened for writing. -/
def opens (d : Desk) : Nat := (d.memory.files[0]?.map MemoryFile.opens).getD 0

/-- Tells an operation of the file to fail, or not to. -/
def setFault (fault : FileFault) (on : Bool) (d : Desk) : Desk :=
  { d with
    memory :=
      { d.memory with
        files := d.memory.files.modify 0 fun f =>
          { f with faults := Memory.toggle on fault f.faults } } }

end Desk

end Dialects.Rehearsal

import Dialects.Conversion.Basic
import Dialects.Streams.Transaction

/-!
# File handles

A document reaches its file through a handle. A handle is a file itself, or stands in for another
handle: a mapped handle converts what is read to the lenient dialect and what is written to the
canonical one, a forwarding handle changes nothing. Mapped handles can be mapped again; each keeps
the handle that it was made from.
-/

namespace Dialects

open Streams

/-- A handle on a file. Files are numbered; `β` is the type of what a mapped handle is bound to: its
converters, and who is told about saves. -/
inductive Handle (β : Type) where
  /-- A file. -/
  | file (number : Nat)
  /-- A stand-in that converts. -/
  | mapped (inner : Handle β) (binding : β)
  /-- A stand-in that changes nothing. -/
  | forwarding (inner : Handle β)
  deriving DecidableEq, Repr

/-- The operations on numbered files, in a state of type `σ`. -/
structure Files (σ : Type) where
  /-- The path of a file. -/
  path : Nat → σ → String
  /-- The chunks of a file's content. -/
  read : Nat → Action σ (List Text)
  /-- Opens a file for writing. -/
  openWrite : Nat → Action σ Unit
  /-- Takes a piece of text to be written to a file. -/
  write : Nat → Text → Action σ Unit
  /-- Stores the text that has been taken. -/
  commit : Nat → Text → Action σ Unit

/-- The file as a sink. -/
def Files.sink {σ : Type} (files : Files σ) (n : Nat) : Sink σ where
  path := files.path n
  openWrite := files.openWrite n
  write := files.write n
  commit := files.commit n

/-- What the binding of a mapped handle means. -/
structure Mapping (σ β : Type) where
  /-- The conversions. -/
  convert : β → Direction → Text → Action σ Text
  /-- Who is told about saves. -/
  listener : β → Listener σ

namespace Handle

variable {σ β : Type}

/-- The number of the file that is reached in the end. -/
def base : Handle β → Nat
  | file n => n
  | mapped h _ | forwarding h => h.base

/-- Whether the handle is a mapped one. -/
def isMapped : Handle β → Bool
  | mapped .. => true
  | _ => false

/-- The dialect of what is read through the handle. -/
def dialect (h : Handle β) : Dialect := if h.isMapped then .lenient else .canonical

/-- The handle from which a mapped one was made; any other handle itself. -/
def unmapped : Handle β → Handle β
  | mapped h _ => h
  | h => h

/-- What becomes of a chunk on its way from the file. -/
def incoming (m : Mapping σ β) : Handle β → Text → Action σ Text
  | file _, t => pure t
  | mapped h b, t => do m.convert b .toLenient (← h.incoming m t)
  | forwarding h, t => h.incoming m t

/-- The chunks that are read through a handle. Each is converted before the next one is. -/
def read (files : Files σ) (m : Mapping σ β) (h : Handle β) : Action σ (List Text) := do
  (← files.read h.base).mapM (h.incoming m)

/-- Where text goes that is written through a handle. -/
def sink (files : Files σ) (m : Mapping σ β) : Handle β → Sink σ
  | file n => files.sink n
  | mapped h b => Transaction.sink (m.convert b .toCanonical) (h.sink files m) (m.listener b)
  | forwarding h => h.sink files m

/-- What a file can be asked for through a stand-in, in alphabetical order. -/
def capabilities : List String :=
  ["create_read_stream", "create_write_stream", "exists", "get_path", "on_did_change",
    "on_did_delete", "on_did_rename"]

/-- The capabilities that a handle carries itself: a stand-in all of them, a file none. -/
def ownCapabilities : Handle β → List String
  | file _ => []
  | _ => capabilities

end Handle

/-! ## Events of a file -/

/-- What can happen to a file. -/
inductive FileEvent where
  /-- Its content has changed. -/
  | changed
  /-- It has been deleted. -/
  | deleted
  /-- It has been renamed. -/
  | renamed
  deriving DecidableEq, Repr

/-- A subscription to an event of a file. -/
structure FileSubscription where
  /-- The event. -/
  event : FileEvent
  /-- A number that no other subscription has. -/
  id : Nat
  /-- The name under which the event is logged. -/
  name : String
  deriving DecidableEq, Repr

end Dialects

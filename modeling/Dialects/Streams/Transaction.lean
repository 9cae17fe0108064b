import Dialects.Action

/-!
# Transactional writing

Opening a file for writing may wipe it. So a text that has to be converted before it is stored is
first collected; when the writer ends it is converted as a whole, and only then is the store opened
and written. If the conversion fails the store is never opened, the failure is reported, and this
and every later use of the writer fails.
-/

namespace Dialects.Streams

/-- Where text is stored, in a state of type `σ`. -/
structure Sink (σ : Type) where
  /-- The path of the store, for messages. -/
  path : σ → String
  /-- Opens the store for writing. -/
  openWrite : Action σ Unit
  /-- Takes a piece of text, which is not stored before the commit. -/
  write : Text → Action σ Unit
  /-- Stores the text that has been taken. -/
  commit : Text → Action σ Unit

namespace Sink

variable {σ : Type}

/-- Stores the pieces of a text. -/
def store (k : Sink σ) (pieces : List Text) : Action σ Unit := do
  k.openWrite
  pieces.forM k.write
  k.commit pieces.flatten

end Sink

/-- Who is told about the outcome of a conversion and of a save. -/
structure Listener (σ : Type) where
  /-- Told when a text could not be converted. -/
  onError : Failure → Action σ Unit
  /-- Told when a text has been stored. -/
  onSuccess : Action σ Unit

/-- The state of a transactional writer. -/
structure Transaction where
  /-- The pieces that have been written, first one first. -/
  pieces : List Text
  /-- Whether the store has been opened. -/
  opened : Bool
  /-- The failure of the conversion, if it failed. -/
  failure : Option Failure
  /-- Whether the writer has ended. -/
  ended : Bool
  deriving DecidableEq, Repr

namespace Transaction

variable {σ : Type}

/-- A writer that has been given nothing. -/
def fresh : Transaction := ⟨[], false, none, false⟩

/-- Takes a piece of text. -/
def write (text : Text) : Action (Transaction × σ) Unit := do
  let t ← .ask Prod.fst
  match t.failure with
  | some f => throw f
  | none =>
    if t.ended then throw (.badValue "write after end")
    else .change fun (t, s) => ({ t with pieces := t.pieces ++ [text] }, s)

/-- An action on the store. -/
def outside {α : Type} (a : Action σ α) : Action (Transaction × σ) α :=
  a.on Prod.snd fun s p => (p.1, s)

/-- A change of the writer. -/
def inside (f : Transaction → Transaction) : Action (Transaction × σ) Unit :=
  .change fun (t, s) => (f t, s)

/-- Converts what has been written and stores it. Ending a second time does nothing, or fails as the
conversion did. -/
def finish (convert : Text → Action σ Text) (sink : Sink σ) (listener : Listener σ) :
    Action (Transaction × σ) Unit := do
  let t ← .ask Prod.fst
  match t.failure with
  | some f => throw f
  | none =>
    if t.ended then pure ()
    else
      -- The writer has ended even if the conversion fails.
      inside fun t => { t with ended := true, pieces := [] }
      match ← outside (convert t.pieces.flatten).attempt with
      | .error f =>
        outside (listener.onError f)
        let failure := Failure.unsaved (← outside (.ask sink.path)) f
        inside fun t => { t with failure := some failure }
        throw failure
      | .ok converted =>
        -- Only now is it safe to open the store, which may wipe it.
        outside sink.openWrite
        inside fun t => { t with opened := true }
        outside (sink.write converted)
        outside (sink.commit converted)
        outside listener.onSuccess

/-- Writes pieces and then ends, unless writing one of them fails or the block is left with a
failure. -/
def block (convert : Text → Action σ Text) (sink : Sink σ) (listener : Listener σ)
    (pieces : List Text) (leave : Option Failure) : Action (Transaction × σ) Unit := do
  pieces.forM write
  match leave with
  | some f => throw f
  | none => finish convert sink listener

/-- How a writer can be used. -/
inductive Use where
  /-- Writes a piece of text. -/
  | write (text : Text)
  /-- Ends. -/
  | finish
  /-- Writes pieces in a block, which is left with a failure or without. -/
  | block (pieces : List Text) (leave : Option Failure)

/-- Uses a writer. -/
def use (convert : Text → Action σ Text) (sink : Sink σ) (listener : Listener σ) :
    Use → Action (Transaction × σ) Unit
  | .write text => write text
  | .finish => finish convert sink listener
  | .block pieces leave => block convert sink listener pieces leave

/-- A sink that converts what it is given and stores it in another one. It opens that only after the
conversion. -/
def sink (convert : Text → Action σ Text) (inner : Sink σ) (listener : Listener σ) : Sink σ where
  path := inner.path
  openWrite := pure ()
  write _ := pure ()
  commit text := fun s =>
    let (r, p) := finish convert inner listener ({ fresh with pieces := [text] }, s)
    (r, p.2)

end Transaction

end Dialects.Streams

import Dialects.Editor.Handle
import Dialects.Editor.Notification
import Dialects.Events.Emitter
import Dialects.Grammar
import Dialects.Streams.Transcoding

/-!
# Documents

A document is a text with a grammar and, unless it is new, a handle on its file. Documents are
numbered. Everything outside the editor, its files and its converters, is a host: any operation of
it may fail at any time.
-/

namespace Dialects

open Streams

/-- What the editor needs from outside, in a state of type `σ`. The type of converter sets is
`κ`. -/
structure Host (σ κ : Type) where
  /-- The files. -/
  files : Files σ
  /-- The converter set of a language. -/
  converters : String → Action σ κ
  /-- A conversion of a converter set. -/
  convert : κ → Direction → Text → Action σ Text
  /-- Fails when a document, given by its number, cannot tell whether it is modified. -/
  checkModified : Nat → Action σ Unit
  /-- Fails when a document's text cannot be replaced. -/
  checkEdit : Nat → Action σ Unit
  /-- Fails when a document cannot be loaded. -/
  checkLoad : Nat → Action σ Unit

/-- What a mapped handle is bound to. -/
structure Binding (κ : Type) where
  /-- The converters. -/
  set : κ
  /-- The name by which notifications refer to the document. -/
  source : String
  deriving DecidableEq, Repr

/-- Who follows the grammar or the end of a document. -/
inductive Observer where
  /-- The controller, through the observation that has this number. -/
  | controller (observation : Nat)
  /-- A listener that leaves a mark in the log; its number tells it from others of its name. -/
  | listener (id : Nat) (name : String)
  deriving DecidableEq, Repr

/-- A document. -/
structure Document (κ : Type) where
  /-- The text in the buffer. The buffer is an ideal store: it gives back whatever text is set, while
  that of a text widget may replace some line breaks, spaces and surrogates by others. -/
  text : Text
  /-- The dialect in which the text was last read or converted. It is kept for the record: no
  operation depends on it. -/
  dialect : Dialect
  /-- Whether the buffer has changed since it was last loaded or saved. -/
  modified : Bool
  /-- The grammar. -/
  grammar : Grammar
  /-- The handle on the file, if there is one. -/
  handle : Option (Handle (Binding κ))
  /-- Who follows the grammar. -/
  grammarObservers : Emitter Observer
  /-- Who follows the end of the document. -/
  endObservers : Emitter Observer
  /-- Whether the document has been closed. -/
  closed : Bool

/-- How the controller follows a document. -/
structure Observation where
  /-- The number of the document. -/
  document : Nat
  /-- The grammar after the last change that was handled; none before the first. -/
  previous : Option Grammar
  deriving DecidableEq, Repr

/-- What a listener has been told. -/
inductive Told where
  /-- Some words, perhaps none. -/
  | words (ws : List String)
  /-- The number of a document. -/
  | document (number : Nat)
  deriving DecidableEq, Repr

/-- The state of an editor. -/
structure Editor (σ κ : Type) where
  /-- All documents ever opened, by their numbers. -/
  documents : List (Document κ)
  /-- The notifications. -/
  notifications : NotificationCentre
  /-- The documents that are shown in the lenient dialect, with their languages, in the order in
  which they became so. -/
  tracked : List (Nat × String)
  /-- All observations ever made, by their numbers. -/
  observations : List Observation
  /-- The marks that listeners have left, each with what it was told. -/
  log : List (String × Told)
  /-- The failures of the host, in order. They are kept for the record: no operation depends on
  them. -/
  faults : List Failure
  /-- The state of the host. -/
  host : σ

namespace Editor

variable {σ κ : Type}

/-- An editor without documents. -/
def fresh (s : σ) : Editor σ κ := ⟨[], .empty, [], [], [], [], s⟩

/-- An action of the host. If it fails, this goes on record. -/
def outside {α : Type} (a : Action σ α) : Action (Editor σ κ) α := fun e =>
  match a e.host with
  | (.ok x, s) => (.ok x, { e with host := s })
  | (.error f, s) => (.error f, { e with host := s, faults := e.faults ++ [f] })

/-- The converter set of a language. That there is none for a language is no failure of the host. -/
def lookUp (h : Host σ κ) (language : String) : Action (Editor σ κ) κ :=
  (h.converters language).on Editor.host fun s e => { e with host := s }

/-- A document by its number. -/
def document (d : Nat) : Action (Editor σ κ) (Document κ) := do
  match (← .ask Editor.documents)[d]? with
  | some doc => pure doc
  | none => throw (.badIndex "no such document")

/-- Changes a document. -/
def modify (d : Nat) (f : Document κ → Document κ) : Action (Editor σ κ) Unit :=
  .change fun e => { e with documents := e.documents.modify d f }

/-- Changes the list of notifications. -/
def notify (f : NotificationCentre → NotificationCentre) : Action (Editor σ κ) Unit :=
  .change fun e => { e with notifications := f e.notifications }

/-- Reports a failure. -/
def report (category : String) (source : String) (f : Failure) : Action (Editor σ κ) Unit :=
  notify fun c => c.report category f (some source)

/-- The files of the host. -/
def files (h : Host σ κ) : Files (Editor σ κ) where
  path n e := h.files.path n e.host
  read n := outside (h.files.read n)
  openWrite n := outside (h.files.openWrite n)
  write n t := outside (h.files.write n t)
  commit n t := outside (h.files.commit n t)

/-- What the bindings of mapped handles mean: a failed conversion is reported as a failed save, and
a successful save dismisses what it makes stale. -/
def mapping (h : Host σ κ) : Mapping (Editor σ κ) (Binding κ) where
  convert b d t := outside (h.convert b.set d t)
  listener b :=
    { onError := report Notification.saveCategory b.source
      onSuccess := notify (·.dismissStale (some b.source)) }

/-- The path of a document, if it has a handle. -/
def path? (h : Host σ κ) (e : Editor σ κ) (doc : Document κ) : Option String :=
  doc.handle.map fun handle => h.files.path handle.base e.host

/-- The name by which notifications refer to a document: its path, or one made up for it. -/
def sourceOf (h : Host σ κ) (e : Editor σ κ) (d : Nat) (doc : Document κ) : String :=
  match path? h e doc with
  | some p => if p = "" then untitled else p
  | none => untitled
where
  /-- A name that no other document has. -/
  untitled : String := "untitled-" ++ String.ofList (Nat.toDigits 16 d)

/-- Whether a document has a handle with a path that is not empty. -/
def isBacked (h : Host σ κ) (e : Editor σ κ) (doc : Document κ) : Bool :=
  match path? h e doc with
  | some p => p ≠ ""
  | none => false

/-- Whether a document is modified. -/
def isModified (h : Host σ κ) (d : Nat) : Action (Editor σ κ) Bool := do
  outside (h.checkModified d)
  return (← document d).modified

/-- Replaces a document's text; the document is modified if the text differs. -/
def setText (h : Host σ κ) (d : Nat) (text : Text) : Action (Editor σ κ) Unit := do
  outside (h.checkEdit d)
  modify d fun doc => if doc.text = text then doc else { doc with text, modified := true }

/-- Sets a document's handle. -/
def setHandle (d : Nat) (handle : Option (Handle (Binding κ))) : Action (Editor σ κ) Unit :=
  modify d fun doc => { doc with handle }

/-- Replaces a document's text by what its handle reads. Nothing happens if there is no handle. -/
def load (h : Host σ κ) (d : Nat) : Action (Editor σ κ) Unit := do
  outside (h.checkLoad d)
  match (← document d).handle with
  | none => pure ()
  | some handle =>
    let chunks ← handle.read (files h) (mapping h)
    modify d fun doc =>
      { doc with text := chunks.flatten, dialect := handle.dialect, modified := false }

/-- Writes a document's text through its handle. -/
def save (h : Host σ κ) (d : Nat) : Action (Editor σ κ) Unit := do
  let doc ← document d
  match doc.handle with
  | none => throw (.storage "Document has no backing file")
  | some handle =>
    (handle.sink (files h) (mapping h)).store [doc.text]
    modify d fun doc => { doc with modified := false }

/-- Replaces a document's text by a conversion of it. -/
def transcode (h : Host σ κ) (d : Nat) (set : κ) (direction : Direction)
    (onError : Failure → Action (Editor σ κ) Unit) : Action (Editor σ κ) Unit := do
  Streams.transcode (Document.text <$> document d) (setText h d)
    (fun t => outside (h.convert set direction t)) onError
  modify d fun doc => { doc with dialect := direction.target }

end Editor

end Dialects

import Dialects.Editor.Controller

/-!
# The workspace

The workspace holds the documents that are open and announces each one that is opened. The lenient
mode can be switched on and off: while it is on, the controller observes every document that is open
or opened later. When the editor itself closes, lenient documents are left as they are.
-/

namespace Dialects

/-- A host whose files can be opened by their paths. -/
structure OpeningHost (σ κ : Type) extends Host σ κ where
  /-- Opens a file, which need not be there, and gives its number. -/
  openFile : String → Action σ Nat
  /-- Whether there is something under the path of a file. -/
  isPresent : Nat → Action σ Bool

/-- Who is told about documents that are opened. -/
inductive Guest where
  /-- The controller. -/
  | controller
  /-- A listener that leaves a mark in the log; its number tells it from others of its name. -/
  | listener (id : Nat) (name : String)
  deriving DecidableEq, Repr

/-- The state of a workspace. -/
structure Workspace (σ κ : Type) where
  /-- The editor. -/
  editor : Editor σ κ
  /-- The documents that are open, by their numbers, in the order of their opening. -/
  opened : List Nat
  /-- Who is told about documents that are opened. -/
  guests : Emitter Guest
  /-- Whether the editor is closing. -/
  closing : Bool
  /-- Whether the lenient mode is on. -/
  lenient : Bool

namespace Editor

variable {σ κ : Type}

/-- Ends a document: tells who follows it, and then has no followers any more. A document ends only
once. -/
def endDocument (d : Nat) : Action (Editor σ κ) Unit := do
  if (← document d).closed then pure ()
  else
    modify d fun doc => { doc with closed := true }
    announceEnd d
    modify d fun doc => { doc with grammarObservers := .empty, endObservers := .empty }

/-- Has a listener follow the grammar of a document, beginning with the present one. -/
def listenGrammar (d id : Nat) (name : String) : Action (Editor σ κ) Unit := do
  mark name (.words [(← document d).grammar.scope])
  modify d fun doc =>
    { doc with grammarObservers := doc.grammarObservers.subscribe (.listener id name) }

/-- Has a listener follow the end of a document. -/
def listenEnd (d id : Nat) (name : String) : Action (Editor σ κ) Unit :=
  modify d fun doc => { doc with endObservers := doc.endObservers.subscribe (.listener id name) }

/-- No longer has a listener follow a document. -/
def unlisten (d id : Nat) (name : String) : Action (Editor σ κ) Unit :=
  modify d fun doc =>
    { doc with
      grammarObservers := doc.grammarObservers.unsubscribe (.listener id name)
      endObservers := doc.endObservers.unsubscribe (.listener id name) }

end Editor

namespace Workspace

variable {σ κ : Type}

/-- A workspace without documents. -/
def fresh (s : σ) : Workspace σ κ := ⟨.fresh s, [], .empty, false, false⟩

/-- An action of the editor. -/
def inEditor {α : Type} (a : Action (Editor σ κ) α) : Action (Workspace σ κ) α :=
  a.on Workspace.editor fun e w => { w with editor := e }

/-- Introduces a document to a guest. -/
def introduce (h : OpeningHost σ κ) (c : ControllerSettings) (d : Nat) (guest : Guest) :
    Action (Workspace σ κ) Unit :=
  match guest with
  | .controller => do
    let _ ← inEditor (Editor.observe h.toHost c d)
  | .listener _ name => inEditor (Editor.mark name (.document d))

/-- A document that has just been made. -/
def newDocument (grammar : Grammar) (handle : Option (Handle (Binding κ))) : Document κ where
  text := []
  dialect := .canonical
  modified := false
  grammar := grammar
  handle := handle
  grammarObservers := .empty
  endObservers := .empty
  closed := false

/-- Opens a document and gives its number. If there is a file under its path it is loaded; otherwise
it begins with the given text, which is not saved. A document that cannot be loaded is not
announced. -/
def openDocument (h : OpeningHost σ κ) (c : ControllerSettings) (path : Option String)
    (grammar : Option Grammar) (text : Text) : Action (Workspace σ κ) Nat := do
  let file ← inEditor (Editor.outside (path.mapM h.openFile))
  let d := (← .ask fun w => w.editor.documents).length
  let doc := newDocument (grammar.getD (.forPath path)) (file.map .file)
  inEditor (.change fun e => { e with documents := e.documents ++ [doc] })
  let present ← match file with
    | some n => inEditor (Editor.outside (h.isPresent n))
    | none => pure false
  -- A failure to load ends the opening here, before anybody hears of the document.
  if present then inEditor (Editor.load h.toHost d)
  else if text ≠ [] then inEditor (Editor.setText h.toHost d text)
  else pure ()
  .change fun w => { w with opened := w.opened ++ [d] }
  (← .ask Workspace.guests).callbacks.forM (introduce h c d)
  return d

/-- Closes a document, whether or not it is open. -/
def close (d : Nat) : Action (Workspace σ κ) Unit := do
  .change fun w => { w with opened := w.opened.erase d }
  inEditor (Editor.endDocument d)

/-- Tells a guest about every document that is open, and later about every one that is opened. -/
def welcome (h : OpeningHost σ κ) (c : ControllerSettings) (guest : Guest) :
    Action (Workspace σ κ) Unit := do
  (← .ask Workspace.opened).forM fun d => introduce h c d guest
  .change fun w => { w with guests := w.guests.subscribe guest }

/-- No longer tells a guest about documents. -/
def dismiss (guest : Guest) : Action (Workspace σ κ) Unit :=
  .change fun w => { w with guests := w.guests.unsubscribe guest }

/-- Closes the workspace with all its documents. -/
def shutDown : Action (Workspace σ κ) Unit := do
  .change fun w => { w with closing := true }
  (← .ask Workspace.opened).forM close

/-- Switches the lenient mode on. -/
def activate (h : OpeningHost σ κ) (c : ControllerSettings) : Action (Workspace σ κ) Unit := do
  if ← .ask Workspace.lenient then pure ()
  else
    .change fun w => { w with lenient := true }
    welcome h c .controller

/-- Switches the lenient mode off. -/
def deactivate (h : OpeningHost σ κ) (c : ControllerSettings) : Action (Workspace σ κ) Unit := do
  if ← .ask Workspace.lenient then
    dismiss .controller
    inEditor (Editor.deactivate h.toHost c (← .ask Workspace.closing))
    .change fun w => { w with lenient := false }
  else pure ()

/-- Closes the editor: switches the lenient mode off and closes the workspace. -/
def quit (h : OpeningHost σ κ) (c : ControllerSettings) : Action (Workspace σ κ) Unit := do
  .change fun w => { w with closing := true }
  deactivate h c
  shutDown

end Workspace

end Dialects

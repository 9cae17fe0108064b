import Dialects.Editor.Workspace
import Dialects.Preferences
import Dialects.Storage.Directory

/-!
# Rehearsing the workspace

Documents on disk are opened, edited, saved, renamed and closed in a workspace while the lenient
mode is switched on and off, and files change behind the editor's back.
-/

namespace Dialects.Rehearsal

/-- A subscription that can be taken back. -/
inductive Subscription where
  /-- To documents that are opened. -/
  | documents (guest : Guest)
  /-- To the grammar or the end of a document. -/
  | document (d id : Nat) (name : String)
  /-- To an event of a file. -/
  | file (n : Nat) (s : FileSubscription)

/-- A rehearsal of the workspace. -/
structure Workroom where
  /-- The workspace. -/
  workspace : Workspace Directory ConverterSet
  /-- How the controller works. -/
  settings : ControllerSettings
  /-- The documents that have been announced, by name, last one first. -/
  cast : List (String × Nat)
  /-- The subscriptions by name, last one first. -/
  subscriptions : List (String × Subscription)

/-- What happens in a rehearsal. Documents are given by their names. -/
inductive Deed where
  /-- Opens a document under a name. -/
  | openDocument (name : String) (path : Option String) (grammar : Option Grammar) (text : Text)
  /-- Closes a document. -/
  | close (doc : String)
  /-- Closes the workspace. -/
  | shutDown
  /-- Closes the editor. -/
  | quit
  /-- Switches the lenient mode on. -/
  | activate
  /-- Switches the lenient mode off. -/
  | deactivate
  /-- Sets a grammar. -/
  | setGrammar (doc : String) (grammar : Grammar)
  /-- Edits a document. -/
  | setText (doc : String) (text : Text)
  /-- Saves a document. -/
  | save (doc : String)
  /-- Loads a document. -/
  | load (doc : String)
  /-- Ends a document without closing it. -/
  | destroy (doc : String)
  /-- Follows the documents that are opened. -/
  | listenDocuments (name : String)
  /-- Follows a document's grammar. -/
  | listenGrammar (doc name : String)
  /-- Follows a document's end. -/
  | listenEnd (doc name : String)
  /-- Follows an event of a document's file. -/
  | listenFile (doc : String) (event : FileEvent) (name : String)
  /-- Takes a subscription back. -/
  | dispose (name : String)
  /-- Renames a document's file. -/
  | rename (doc : String) (newPath : String)
  /-- Brings a document's watcher news of a path. -/
  | news (doc : String) (path : String)
  /-- Puts a file or a folder on the disk. -/
  | put (path : String) (entry : Entry)
  /-- Deletes a file from the disk. -/
  | delete (path : String)
  /-- Asks whether a document's file is there. -/
  | isPresent (doc : String)
  /-- Asks whether the editor is closing. -/
  | isClosing
  /-- Dismisses a notification. -/
  | dismiss (index : Int)
  /-- Dismisses all notifications and empties the list. -/
  | clear

namespace Workroom

/-- The host. -/
def host : OpeningHost Directory ConverterSet :=
  { Directory.host with
    openFile := Directory.openFile
    isPresent := Directory.isPresent }

/-- A workspace without documents, on a disk. -/
def setUp (p : Preferences) (tree : Tree) : Workroom :=
  ⟨.fresh (.ofTree tree (Recipe.standard p.indent)), p.controllerSettings, [], []⟩

/-- An action of the workspace. -/
def inWorkspace {α : Type} (a : Action (Workspace Directory ConverterSet) α) : Action Workroom α :=
  a.on Workroom.workspace fun w r => { r with workspace := w }

/-- An action of the editor. -/
def inEditor {α : Type} (a : Action (Editor Directory ConverterSet) α) : Action Workroom α :=
  inWorkspace (Workspace.inEditor a)

/-- An action of the disk. -/
def onDisk {α : Type} (a : Action Directory α) : Action Workroom α := inEditor (Editor.outside a)

/-- The number of a document. -/
def number (doc : String) : Action Workroom Nat := do
  match (← .ask Workroom.cast).lookup doc with
  | some d => pure d
  | none => throw (.missingKey doc)

/-- The number of a document's file. -/
def fileOf (doc : String) : Action Workroom Nat := do
  match (← inEditor (Editor.document (← number doc))).handle with
  | some h => pure h.base
  | none => throw (.storage "Document has no backing file")

/-- Remembers a subscription. -/
def remember (name : String) (s : Subscription) : Action Workroom Unit :=
  .change fun r => { r with subscriptions := (name, s) :: r.subscriptions }

/-- The number of the next subscription. -/
def nextId : Action Workroom Nat := .ask fun r => r.subscriptions.length

/-- Opens a document and names it if it has been announced. -/
def openDocument (name : String) (path : Option String) (grammar : Option Grammar) (text : Text) :
    Action Workroom Unit := do
  let settings ← .ask Workroom.settings
  let d := (← .ask fun r => r.workspace.editor.documents).length
  let outcome ← (inWorkspace (Workspace.openDocument host settings path grammar text)).attempt
  if (← .ask fun r => r.workspace.opened).contains d then
    .change fun r => { r with cast := (name, d) :: r.cast }
  let _ ← Action.ofExcept outcome

/-- Takes a subscription back. -/
def dispose : Subscription → Action Workroom Unit
  | .documents guest => inWorkspace (Workspace.dismiss guest)
  | .document d id name => inEditor (Editor.unlisten d id name)
  | .file n s => onDisk (Directory.unsubscribe n s)

/-- Tells who follows an event of a file. -/
def announce (n : Nat) (event : FileEvent) (args : List String) : Action Workroom Unit := do
  (← onDisk (Directory.audience n event)).forM fun s =>
    inEditor (Editor.mark s.name (.words args))

/-- Deletes a file from the disk. -/
def delete (path : String) : Action Directory Unit := do
  let tree ← .ask Directory.tree
  match tree.locate (.ofString path), tree.find? (.ofString path) with
  | some place, some (.file _) => .change fun s => { s with tree := tree.erase place }
  | _, _ => throw (.missingFile ("[Errno 2] No such file or directory: " ++ quote path))

/-- Carries out a deed. Some give a truth value. -/
def perform (deed : Deed) : Action Workroom (Option Bool) := do
  let settings ← .ask Workroom.settings
  match deed with
  | .openDocument name path grammar text => openDocument name path grammar text
  | .close doc => inWorkspace (Workspace.close (← number doc))
  | .shutDown => inWorkspace Workspace.shutDown
  | .quit => inWorkspace (Workspace.quit host settings)
  | .activate => inWorkspace (Workspace.activate host settings)
  | .deactivate => inWorkspace (Workspace.deactivate host settings)
  | .setGrammar doc g => inEditor (Editor.changeGrammar host.toHost settings (← number doc) g)
  | .setText doc t => inEditor (Editor.setText host.toHost (← number doc) t)
  | .save doc => inEditor (Editor.save host.toHost (← number doc))
  | .load doc => inEditor (Editor.load host.toHost (← number doc))
  | .destroy doc => inEditor (Editor.endDocument (← number doc))
  | .listenDocuments name =>
    let guest := Guest.listener (← nextId) name
    inWorkspace (Workspace.welcome host settings guest)
    remember name (.documents guest)
  | .listenGrammar doc name =>
    let d ← number doc
    let id ← nextId
    inEditor (Editor.listenGrammar d id name)
    remember name (.document d id name)
  | .listenEnd doc name =>
    let d ← number doc
    let id ← nextId
    inEditor (Editor.listenEnd d id name)
    remember name (.document d id name)
  | .listenFile doc event name =>
    let n ← fileOf doc
    let s : FileSubscription := ⟨event, ← nextId, name⟩
    onDisk (Directory.subscribe n s)
    remember name (.file n s)
  | .dispose name =>
    match (← .ask Workroom.subscriptions).lookup name with
    | some s => dispose s
    | none => throw (.missingKey name)
  | .rename doc newPath =>
    let n ← fileOf doc
    onDisk (Directory.rename n newPath)
    announce n .renamed [(Path.ofString newPath).toString]
  | .news doc path =>
    let n ← fileOf doc
    match ← onDisk (Directory.notice n path) with
    | some event => announce n event []
    | none => pure ()
  | .put path entry =>
    onDisk (.change fun s => { s with tree := s.tree.put (.ofString path) entry })
  | .delete path => onDisk (delete path)
  | .isPresent doc => return some (← onDisk (Directory.isPresent (← fileOf doc)))
  | .isClosing => return some (← .ask fun r => r.workspace.closing)
  | .dismiss index =>
    let centre ← .ask fun r : Workroom => r.workspace.editor.notifications
    let centre' ← Action.ofExcept (centre.dismissAt index)
    inEditor (Editor.notify fun _ => centre')
  | .clear => inEditor (Editor.notify (·.clear))
  return none

end Workroom

end Dialects.Rehearsal

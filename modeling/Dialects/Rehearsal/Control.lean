import Dialects.Editor.Controller
import Dialects.Storage.Memory

/-!
# Rehearsing the controller

Documents on files in memory are observed by a controller while their grammars change, they are
edited, loaded, saved and closed, and files, documents and converters fail.
-/

namespace Dialects.Rehearsal

/-- A document to begin with. -/
structure Script where
  /-- The name. -/
  name : String
  /-- The path of its file, if it has one. -/
  path : Option String
  /-- The text, if it is not the one stored under the path. -/
  text : Option Text
  /-- The grammar. -/
  grammar : Grammar
  /-- Whether it is modified. -/
  modified : Bool
  /-- The chunks of its file, if they do not come from the store. -/
  chunks : Option (List Text)

/-- A rehearsal of the controller. -/
structure Stage where
  /-- The editor. -/
  editor : Editor Memory ConverterSet
  /-- How the controller works. -/
  settings : ControllerSettings
  /-- The names of the documents and the numbers of their files. -/
  cast : List (String × Option Nat)
  /-- The numbers of the observations that have names. -/
  observations : List (String × Nat)

/-- What happens in a rehearsal. Documents are given by their names. -/
inductive Cue where
  /-- Observes a document and names the observation. -/
  | observe (doc : String) (name : String)
  /-- Ends an observation. -/
  | unobserve (name : String)
  /-- Sets a grammar. -/
  | setGrammar (doc : String) (grammar : Grammar)
  /-- Has the controller handle a grammar. -/
  | handle (doc : String) (grammar : Grammar) (previous : Option Grammar)
  /-- Has the controller turn a document lenient. -/
  | enable (doc : String) (previous : Option Grammar) (language : String)
  /-- Has the controller turn a document canonical. -/
  | disable (doc : String)
  /-- Deactivates the controller. -/
  | deactivate (closing : Bool)
  /-- Asks for the language of a grammar. -/
  | languageFor (grammar : Grammar)
  /-- Saves a document. -/
  | save (doc : String)
  /-- Loads a document. -/
  | load (doc : String)
  /-- Announces the end of a document. -/
  | destroy (doc : String)
  /-- Edits a document. -/
  | setText (doc : String) (text : Text)
  /-- Takes a document's handle away. -/
  | detach (doc : String)
  /-- Stores a text behind the editor's back. -/
  | put (path : String) (text : Text)
  /-- Tells an operation of a document to fail, or not to. -/
  | documentFault (doc : String) (fault : DocumentFault) (on : Bool)
  /-- Tells an operation of a document's file to fail, or not to. -/
  | fileFault (doc : String) (fault : FileFault) (on : Bool)
  /-- Tells a conversion to fail. -/
  | breakConverter (language : String) (direction : Direction) (failure : Failure)
  /-- Tells a conversion not to fail. -/
  | fixConverter (language : String) (direction : Direction)
  /-- Dismisses a notification. -/
  | dismiss (index : Int)

/-- What a cue gives. -/
inductive Reply where
  /-- Nothing. -/
  | none
  /-- The outcome of a change of dialect. -/
  | outcome (o : Outcome)
  /-- The tag of a language, if there is one. -/
  | language (tag : Option String)

namespace Stage

/-- The files of the documents that have paths, in order. -/
def filesOf (scripts : List Script) : List MemoryFile :=
  scripts.filterMap fun s => s.path.map fun p => ⟨p, s.chunks, [], 0, .empty⟩

/-- The names of the documents with the numbers of their files, from a number on. -/
def castFrom (n : Nat) : List Script → List (String × Option Nat)
  | [] => []
  | s :: rest =>
    match s.path with
    | some _ => (s.name, some n) :: castFrom (n + 1) rest
    | none => (s.name, none) :: castFrom n rest

/-- A stage with documents, none of them observed. -/
def setUp (registry : Registry Recipe ConverterSet) (settings : ControllerSettings)
    (disk : List (String × Text)) (scripts : List Script) : Stage :=
  let cast := castFrom 0 scripts
  let documents : List (Document ConverterSet) := (scripts.zip cast).map fun (s, _, file) =>
    let stored := (s.path.bind (List.lookup · disk)).getD []
    { text := s.text.getD stored
      dialect := .canonical
      modified := s.modified
      grammar := s.grammar
      handle := file.map .file
      grammarObservers := .empty
      endObservers := .empty
      closed := false }
  let editor : Editor Memory ConverterSet :=
    .fresh ⟨disk, filesOf scripts, [], [], [], [], registry⟩
  { editor := { editor with documents }
    settings
    cast
    observations := [] }

/-- An action of the editor. -/
def inEditor {α : Type} (a : Action (Editor Memory ConverterSet) α) : Action Stage α :=
  a.on Stage.editor fun e s => { s with editor := e }

/-- An action of the storage. -/
def inMemory {α : Type} (a : Action Memory α) : Action Stage α := inEditor (Editor.outside a)

/-- The number of a document. -/
def number (doc : String) : Action Stage Nat := do
  match (← .ask Stage.cast).findIdx? (·.1 = doc) with
  | some n => pure n
  | none => throw (.missingKey doc)

/-- Carries out a cue. -/
def perform (cue : Cue) : Action Stage Reply := do
  let host := Memory.host
  let settings ← .ask Stage.settings
  match cue with
  | .observe doc name =>
    let n ← inEditor (Editor.observe host settings (← number doc))
    .change fun s => { s with observations := (name, n) :: s.observations }
    return .none
  | .unobserve name =>
    match (← .ask Stage.observations).lookup name with
    | some n => inEditor (Editor.unobserve n)
    | none => throw (.missingKey name)
    return .none
  | .setGrammar doc g =>
    inEditor (Editor.changeGrammar host settings (← number doc) g)
    return .none
  | .handle doc g previous =>
    let d ← number doc
    return .outcome (← inEditor
      (Editor.handleGrammar host settings (Editor.changeGrammar host settings) d g previous))
  | .enable doc previous language =>
    let d ← number doc
    return .outcome (← inEditor
      (Editor.enable host settings (Editor.changeGrammar host settings) d previous language))
  | .disable doc => return .outcome (← inEditor (Editor.disable host settings (← number doc)))
  | .deactivate closing =>
    inEditor (Editor.deactivate host settings closing)
    return .none
  | .languageFor g => return .language (settings.languageOf g)
  | .save doc =>
    inEditor (Editor.save host (← number doc))
    return .none
  | .load doc =>
    inEditor (Editor.load host (← number doc))
    return .none
  | .destroy doc =>
    inEditor (Editor.announceEnd (← number doc))
    return .none
  | .setText doc text =>
    inEditor (Editor.setText host (← number doc) text)
    return .none
  | .detach doc =>
    inEditor (Editor.setHandle (← number doc) Option.none)
    return .none
  | .put path text =>
    inMemory (Memory.put path text)
    return .none
  | .documentFault doc fault on =>
    let d ← number doc
    inMemory (.change fun m =>
      { m with documentFaults := Memory.toggle on (d, fault) m.documentFaults })
    return .none
  | .fileFault doc fault on =>
    match ((← .ask Stage.cast).lookup doc).bind id with
    | some n =>
      inMemory (Memory.modifyFile n fun f => { f with faults := Memory.toggle on fault f.faults })
    | Option.none => throw (.missingKey doc)
    return .none
  | .breakConverter language d f =>
    inMemory (.change fun m => { m with broken := Memory.update (language, d) f m.broken })
    return .none
  | .fixConverter language d =>
    inMemory (.change fun m => { m with broken := m.broken.filter (·.1 ≠ (language, d)) })
    return .none
  | .dismiss index =>
    let c ← Action.ofExcept ((← .ask fun s : Stage => s.editor.notifications).dismissAt index)
    inEditor (Editor.notify fun _ => c)
    return .none

/-- Whether a document still has the handle it began with, perhaps mapped. -/
def hasOwnFile (doc : Document ConverterSet) (file : Option Nat) : Bool :=
  doc.handle.map Handle.unmapped == file.map .file

end Stage

end Dialects.Rehearsal

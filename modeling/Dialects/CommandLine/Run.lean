import Dialects.CommandLine.Arguments
import Dialects.CommandLine.Usage
import Dialects.Preferences
import Dialects.Storage.Directory

/-!
# The command line

The program converts one file, through the same handles as the editor: a file is turned lenient as a
mapped handle reads it, and canonical as a mapped handle writes it. The result is printed, or the
file is stored anew.

A failure of the pipeline or of the storage is reported and gives the exit status 1. Other failures,
such as bytes that are not UTF-8, end the program as they are.
-/

namespace Dialects.CommandLine

open Streams

/-- What the program works on and has said so far. -/
structure Console where
  /-- The disk. -/
  disk : Directory
  /-- What has been printed. -/
  output : Text
  /-- What has been said about failures and progress. -/
  remarks : String

namespace Console

/-- A console on a tree on which nothing has been said. -/
def start (tree : Tree) : Console := ⟨.ofTree tree .empty, [], ""⟩

/-- An action on the disk. -/
def onDisk {α : Type} (a : Action Directory α) : Action Console α :=
  a.on Console.disk fun d c => { c with disk := d }

/-- Prints a text. -/
def print (t : Text) : Action Console Unit := .change fun c => { c with output := c.output ++ t }

/-- Remarks on something. -/
def remark (s : String) : Action Console Unit :=
  .change fun c => { c with remarks := c.remarks ++ s }

/-- The files. -/
def files : Files Console :=
  let ops := Directory.fileOperations
  { path := fun n c => ops.path n c.disk
    read := fun n => onDisk (ops.read n)
    openWrite := fun n => onDisk (ops.openWrite n)
    write := fun n t => onDisk (ops.write n t)
    commit := fun n t => onDisk (ops.commit n t) }

/-- What the binding of a mapped handle means: the converters, and the path under which progress is
remarked on if that is wished. -/
def mapping (a : Arguments) : Mapping Console ConverterSet where
  convert set d t := .ofExcept (set.convert d t)
  listener _ :=
    let path := Path.normal a.path
    let say (s : String) : Action Console Unit :=
      if a.verbose then remark ("DEBUG " ++ s ++ "\n") else pure ()
    { onError := fun f =>
        say ("pylenient.app: Conversion of " ++ path ++ " failed: " ++ f.message)
      onSuccess :=
        say ("pylenient.lenient.streams: Saved " ++ path ++ " through lenient conversion") }

end Console

/-- What stands under a path, as a candidate for the configuration. -/
def candidateOf (path : String) : Option Entry → Candidate
  | none => .missing
  | some (.file content) => .file content
  | some .folder => .unopenable ("[Errno 21] Is a directory: " ++ quote (Path.normal path))

/-- Reads the preferences: from the configuration file that is asked for, or from others. -/
def configure (a : Arguments) (others : List (String × Candidate)) :
    Action Console Preferences := do
  let tree ← .ask fun c : Console => c.disk.tree
  let asked := a.config.toList.map fun p =>
    (Path.normal p, candidateOf p (tree.find? (.ofString p)))
  let search := Configuration.search (asked ++ others)
  search.ignored.forM fun i =>
    Console.remark ("WARNING pylenient.services.config.ini_config_service: " ++
      "Ignoring unreadable config " ++ i.path ++ ": " ++ i.reason ++ "\n")
  Action.ofExcept (search.result.bind Preferences.ofConfiguration)

/-- Converts the file and gives the text to be printed. -/
def convertFile (a : Arguments) : Action Console Text := do
  let set ← Console.onDisk (Directory.converters (a.language.getD (languageForPath a.path)))
  let n ← Console.onDisk (Directory.openFile a.path)
  let file : Handle ConverterSet := .file n
  let mapped : Handle ConverterSet := .mapped file set
  let read (h : Handle ConverterSet) : Action Console Text := do
    return (← h.read Console.files (Console.mapping a)).flatten
  let store (h : Handle ConverterSet) (t : Text) : Action Console Unit :=
    (h.sink Console.files (Console.mapping a)).store [t]
  match a.target with
  | .lenient =>
    let text ← read mapped
    if a.write then store file text
    return text
  | .canonical =>
    let text ← read file
    -- A text that is stored is converted once, by the mapped handle.
    if a.write then
      store mapped text
      return []
    else Action.ofExcept (set.convert .toCanonical text)

/-- Carries out what is asked for and gives the exit status. -/
def convert (a : Arguments) (others : List (String × Candidate)) : Action Console Nat := do
  let preferences ← configure a others
  Console.onDisk (.change fun d => { d with registry := Recipe.standard preferences.indent })
  match ← (convertFile a).attempt with
  | .ok text =>
    if !a.write then Console.print text
    return 0
  | .error f =>
    if f.isPipeline || f.isStorage then
      Console.remark (program ++ ": " ++ f.message ++ "\n")
      return 1
    else throw f

/-- Runs the program with the words of a command line and the configuration files in standard
places, and gives the exit status. -/
def run (words : List String) (others : List (String × Candidate)) : Action Console Nat := do
  match Arguments.parse words with
  | .ok a => convert a others
  | .error .help =>
    Console.print (Text.ofString help)
    return 0
  | .error .version =>
    Console.print (Text.ofString version)
    return 0
  | .error (.misuse message) =>
    Console.remark (complaint message)
    return 2

end Dialects.CommandLine

import Dialects.Ini.Reader
import Dialects.Ini.Substitution
import Dialects.Text.Integer

/-!
# Configuration

The configuration is read from the first of several candidate files that is there and can be read.
A candidate that cannot be opened or is malformed is ignored, with a warning, and leaves nothing
behind. A candidate that is not UTF-8 is a failure.
-/

namespace Dialects

/-- What is found where a configuration file may be. -/
inductive Candidate where
  /-- Nothing. -/
  | missing
  /-- Something that cannot be opened, and why. -/
  | unopenable (reason : String)
  /-- A file. -/
  | file (content : Bytes)
  deriving DecidableEq, Repr

/-- A candidate that has been ignored. -/
structure Ignored where
  /-- Its path. -/
  path : String
  /-- Why it was ignored. -/
  reason : String
  deriving DecidableEq, Repr

/-- A configuration. -/
structure Configuration where
  /-- The options. There is always a section for the lenient mode. -/
  ini : Ini
  /-- The path of the file from which it was read, if it was read from one. -/
  origin : Option String
  deriving DecidableEq, Repr

namespace Configuration

/-- The name of the section for the lenient mode. -/
def lenientName : Text := Text.ofString "lenient"

/-- A configuration with the options of a file. -/
def ofIni (ini : Ini) (origin : Option String) : Configuration :=
  ⟨ini.withSection lenientName, origin⟩

/-- What a search among candidates has found. -/
structure Search where
  /-- The candidates that were ignored, in order. -/
  ignored : List Ignored
  /-- The configuration. -/
  result : Except Failure Configuration

/-- Searches candidates, which are given with their paths. -/
def search : List (String × Candidate) → Search
  | [] => ⟨[], .ok (ofIni .empty none)⟩
  | (path, candidate) :: rest =>
    let skip (reason : String) : Search :=
      let s := search rest
      { s with ignored := ⟨path, reason⟩ :: s.ignored }
    match candidate with
    | .missing => search rest
    | .unopenable reason => skip reason
    | .file content =>
      match Ini.ofBytes content with
      | .ok ini => ⟨[], .ok (ofIni ini (some path))⟩
      | .error (.malformed fault) => skip (fault.message path)
      | .error (.undecodable fault) => ⟨[], .error (.undecodable fault)⟩

/-- The value of an option, if there is one. -/
def get? (c : Configuration) (sectionName option : Text) : Except Failure (Option Text) :=
  (c.ini.get? sectionName option).mapError .substitution

/-- The value of an option as an integer, if it is one. -/
def getInt? (c : Configuration) (sectionName option : Text) : Except Failure (Option Int) := do
  return (← c.get? sectionName option).bind Text.toInt?

/-- The words for true. -/
def trueWords : List Text := ["1", "true", "yes", "y", "on"].map Text.ofString

/-- The words for false. -/
def falseWords : List Text := ["0", "false", "no", "n", "off"].map Text.ofString

/-- The truth value that a word stands for, in any case and with blanks around it. -/
def truth? (t : Text) : Option Bool :=
  let word := t.trim.toLower
  if trueWords.contains word then some true
  else if falseWords.contains word then some false
  else none

/-- The value of an option as a truth value, if it is one. -/
def getBool? (c : Configuration) (sectionName option : Text) : Except Failure (Option Bool) := do
  return (← c.get? sectionName option).bind truth?

/-- All sections with the values of their options. -/
def snapshot (c : Configuration) : Except Failure (List (Text × IniOptions)) :=
  c.ini.snapshot.mapError .substitution

end Configuration

end Dialects

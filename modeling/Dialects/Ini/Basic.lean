import Dialects.Failure
import Dialects.Text.LowerCase

/-!
# INI files

An INI file consists of sections, and a section of options with values. The options of the section
`DEFAULT` belong to every section that does not have an option of the same name itself. The names of
options are kept in lower case.
-/

namespace Dialects

/-- Names with values, in the order of the file. -/
abbrev IniOptions := List (Text × Text)

/-- The content of an INI file. -/
structure Ini where
  /-- The options of all sections. -/
  defaults : IniOptions
  /-- The sections by their names. -/
  sections : List (Text × IniOptions)
  deriving DecidableEq, Repr

namespace Ini

/-- A file without sections. -/
def empty : Ini := ⟨[], []⟩

/-- The name of the section whose options belong to all. -/
def defaultName : Text := Text.ofString "DEFAULT"

/-- Whether there is a section of a name; the one of the defaults is always there. -/
def hasSection (f : Ini) (name : Text) : Bool :=
  name = defaultName || (f.sections.lookup name).isSome

/-- The options of a section: its own ones first, then the defaults that it does not override. -/
def options (f : Ini) (name : Text) : IniOptions :=
  let own := (f.sections.lookup name).getD []
  own ++ f.defaults.filter fun o => (own.lookup o.1).isNone

/-- The value of an option as it is written. -/
def raw? (f : Ini) (name option : Text) : Option Text := (f.options name).lookup option

/-- The file with a section of the given name; it has no options if it was not there. -/
def withSection (f : Ini) (name : Text) : Ini :=
  if f.hasSection name then f else { f with sections := f.sections ++ [(name, [])] }

/-- What makes a file unreadable. -/
inductive Fault where
  /-- A line comes before the first section. -/
  | noSection (line : Nat) (text : Text)
  /-- A section occurs twice. -/
  | repeatedSection (line : Nat) (name : Text)
  /-- An option occurs twice in a section. -/
  | repeatedOption (line : Nat) (sectionName option : Text)
  /-- Some lines are neither sections nor options. -/
  | badLines (lines : List (Nat × Text))
  deriving DecidableEq, Repr

/-- A line's number, two places wide. -/
def showLine (n : Nat) : String := (if n < 10 then " " else "") ++ toString n

/-- The wording of a fault of the file at a path. -/
def Fault.message (path : String) : Fault → String
  | .noSection line text =>
    "File contains no section headers.\nfile: " ++ quote path ++ s!", line: {line}\n" ++ text.quoted
  | .repeatedSection line name =>
    "While reading from " ++ quote path ++ " [line " ++ showLine line ++ "]: section " ++
      name.quoted ++ " already exists"
  | .repeatedOption line sectionName option =>
    "While reading from " ++ quote path ++ " [line " ++ showLine line ++ "]: option " ++
      option.quoted ++ " in section " ++ sectionName.quoted ++ " already exists"
  | .badLines lines =>
    "Source contains parsing errors: " ++ quote path ++
      String.join (lines.map fun (n, text) => "\n\t[line " ++ showLine n ++ "]: " ++ text.quoted)

end Ini

end Dialects

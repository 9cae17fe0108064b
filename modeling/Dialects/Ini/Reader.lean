import Dialects.Ini.Basic
import Dialects.Text.Blank
import Dialects.Text.Blocks

/-!
# Reading INI files

A file is read line by line. A line in brackets opens a section; a line with an equals sign or a
colon is an option, and the first of these ends its name. A line that is indented more deeply than
the option before it continues that option's value, and so does an empty line. Lines that start with
a number sign or a semicolon are comments.

Lines that are neither sections nor options are gathered, and the file is refused at its end; any
other fault refuses it at once.
-/

namespace Dialects

namespace Text

/-- A text in which every line ends with a line feed, whether it did so, or with a carriage return,
or with both. -/
def unifyLineEnds : Text → Text
  | [] => []
  | .scalar '\r' :: .scalar '\n' :: t => newline :: unifyLineEnds t
  | .scalar '\r' :: t => newline :: unifyLineEnds t
  | c :: t => c :: unifyLineEnds t

/-- The lines of a text, each with the line feed that ends it. The last one may have none. -/
def linesWithEnds : Text → List Text
  | [] => []
  | c :: t =>
    if c = newline then [c] :: linesWithEnds t
    else match linesWithEnds t with
      | line :: rest => (c :: line) :: rest
      | [] => [[c]]

end Text

namespace Ini

/-- An option whose value is being read: its name and the lines of its value. -/
abbrev OpenOption := Text × List Text

/-- What has been read of a file. -/
structure Reading where
  /-- The options of all sections. -/
  defaults : List OpenOption
  /-- The sections by their names. -/
  sections : List (Text × List OpenOption)
  /-- The name of the section that has been opened last. -/
  place : Option Text
  /-- The name of the option that can be continued. -/
  current : Option Text
  /-- The indent of the last line that was no continuation. -/
  indent : Nat
  /-- The lines that were neither sections nor options. -/
  badLines : List (Nat × Text)

namespace Reading

/-- Nothing has been read. -/
def start : Reading := ⟨[], [], none, none, 0, []⟩

/-- The options of the section opened last. -/
def options (r : Reading) : List OpenOption :=
  match r.place with
  | none => []
  | some name => if name = defaultName then r.defaults else (r.sections.lookup name).getD []

/-- Changes the options of the section opened last. -/
def modify (r : Reading) (f : List OpenOption → List OpenOption) : Reading :=
  match r.place with
  | none => r
  | some name =>
    if name = defaultName then { r with defaults := f r.defaults }
    else { r with sections := r.sections.map fun s => if s.1 = name then (s.1, f s.2) else s }

/-- Continues the current option's value by a line. -/
def extend (r : Reading) (value : Text) : Reading :=
  match r.current with
  | none => r
  | some name => r.modify (·.map fun o => if o.1 = name then (o.1, o.2 ++ [value]) else o)

/-- Opens a section. The one of the defaults may be opened more than once. -/
def openSection (r : Reading) (number : Nat) (name : Text) : Except Fault Reading :=
  let r' := { r with place := some name, current := none }
  if name = defaultName then .ok r'
  else if (r.sections.lookup name).isSome then .error (.repeatedSection number name)
  else .ok { r' with sections := r.sections ++ [(name, [])] }

/-- Takes note of a line that is neither a section nor an option. -/
def reject (r : Reading) (number : Nat) (line : Text) : Reading :=
  { r with badLines := r.badLines ++ [(number, line)] }

/-- Adds an option to a section. -/
def addOption (r : Reading) (number : Nat) (sectionName name value : Text) :
    Except Fault Reading :=
  if (r.options.lookup name).isSome then .error (.repeatedOption number sectionName name)
  else
    let r' := r.modify (· ++ [(name, [value])])
    -- An option without a name cannot be continued.
    .ok { r' with current := if name = [] then none else some name }

end Reading

/-- Whether a line without the blanks around it is a comment. -/
def isComment : Text → Bool
  | .scalar '#' :: _ | .scalar ';' :: _ => true
  | _ => false

/-- The name of the section that a line opens: what stands between a bracket at its start and the
last closing one, unless that is nothing. -/
def heading? : Text → Option Text
  | .scalar '[' :: t =>
    match (t.reverse.dropWhile (· ≠ .scalar ']')).drop 1 with
    | [] => none
    | name => some name.reverse
  | _ => none

/-- Whether a code point stands between an option's name and its value. -/
def isDelimiter (c : CodePoint) : Bool := c = .scalar '=' || c = .scalar ':'

/-- The name and the value of the option that a line holds. -/
def option? (t : Text) : Option (Text × Text) :=
  match t.dropWhile fun c => !isDelimiter c with
  | [] => none
  | _ :: value =>
    let name := t.takeWhile fun c => !isDelimiter c
    some (Text.trimRight name, Text.trim value)

/-- Reads a line, which is given with its number and with its end. -/
def readLine (r : Reading) (number : Nat) (line : Text) : Except Fault Reading :=
  let value := line.trim
  if isComment value then .ok r
  else if value = [] then .ok (r.extend [])
  else
    let indent := Text.spanLength CodePoint.isBlank line
    if r.current.isSome && r.indent < indent then .ok (r.extend value)
    else
      -- From here on this line is the one whose indent counts.
      let r := { r with indent }
      match heading? value, r.place with
      | some name, _ => r.openSection number name
      | none, none => .error (.noSection number line)
      | none, some place =>
        match option? value with
        | none => .ok (r.reject number line)
        | some (name, v) =>
          -- A nameless option is at fault, and still another one like it is a repetition.
          let r' := if name = [] then r.reject number line else r
          r'.addOption number place name.toLower v

/-- Reads lines, of which the first has the given number. -/
def readLines (r : Reading) (number : Nat) : List Text → Except Fault Reading
  | [] => .ok r
  | line :: rest => do readLines (← readLine r number line) (number + 1) rest

/-- The options with their values put together. -/
def close (os : List OpenOption) : IniOptions :=
  os.map fun (name, value) => (name, (Text.unlines value).trimRight)

/-- The file that has been read. -/
def Reading.finish (r : Reading) : Except Fault Ini :=
  if r.badLines = [] then .ok ⟨close r.defaults, r.sections.map fun (name, os) => (name, close os)⟩
  else .error (.badLines r.badLines)

/-- Why a file cannot be read. -/
inductive Problem where
  /-- Its bytes are not UTF-8. -/
  | undecodable (fault : Utf8.DecodeFault)
  /-- Its text is not that of an INI file. -/
  | malformed (fault : Fault)
  deriving DecidableEq, Repr

/-- The file that a text spells. -/
def ofText (t : Text) : Except Fault Ini := do
  (← readLines .start 1 t.unifyLineEnds.linesWithEnds).finish

/-- The lines that are complete although the text breaks off. A carriage return at the end may be
the first half of a line's end. -/
def completeLines (t : Text) : List Text :=
  let t := if t.getLast? = some (.scalar '\r') then t.dropLast else t
  (Text.linesWithEnds (Text.unifyLineEnds t)).filter fun line => line.getLast? = some Text.newline

/-- The file that bytes hold. Lines are read as they are decoded, so that a fault of a complete line
comes before bytes in a later block that are not UTF-8. -/
def ofBytes (bs : Bytes) : Except Problem Ini :=
  match Utf8.decodeFile bs with
  | (t, none) => (ofText t).mapError .malformed
  | (t, some fault) =>
    match readLines .start 1 (completeLines t) with
    | .error f => .error (.malformed f)
    | .ok _ => .error (.undecodable fault)

end Ini

end Dialects

import Dialects.Json.Convert
import Dialects.Script.Canonical

/-!
# Conversions between dialects

A converter set holds, for one language, the conversions in each direction. Besides those of the two
languages that the editor knows there are sets that work line by line, for languages whose lenient
dialect is the canonical one without a semicolon at the end of each line.
-/

namespace Dialects

/-- One of the two dialects of a language. -/
inductive Dialect where
  /-- The dialect of files. -/
  | canonical
  /-- The dialect in which documents are shown. -/
  | lenient
  deriving DecidableEq, Repr

/-- A direction of conversion. -/
inductive Direction where
  /-- From the canonical to the lenient dialect. -/
  | toLenient
  /-- From the lenient to the canonical dialect. -/
  | toCanonical
  /-- From the lenient dialect to its normal form. -/
  | normalize
  deriving DecidableEq, Repr

/-- The dialect of what a conversion gives. -/
def Direction.target : Direction → Dialect
  | .toCanonical => .canonical
  | .toLenient | .normalize => .lenient

/-- A conversion of texts, which may fail. -/
abbrev Convert := Text → Except Failure Text

namespace Lines

/-- Each line without a semicolon at its end. -/
def strip (t : Text) : Text :=
  Text.unlines ((Text.lines t).map fun line =>
    if line.getLast? = some (.scalar ';') then line.dropLast else line)

/-- Each line that is not empty with a semicolon at its end. -/
def add (t : Text) : Text :=
  Text.unlines ((Text.lines t).map fun line =>
    if line = [] || line.getLast? = some (.scalar ';') then line else line ++ [.scalar ';'])

/-- The conversion line by line, with a mark in front of the result. -/
def convert (mark : Text) : Direction → Convert
  | .toLenient, t => .ok (mark ++ strip t)
  | .toCanonical, t => .ok (mark ++ add t)
  | .normalize, t => .ok (mark ++ strip (add t))

end Lines

/-- The conversions of one language. -/
inductive ConverterSet where
  /-- Scripts, whose lenient dialect has no semicolons at the ends of lines. -/
  | script
  /-- JSON documents, with the indent of nested values. -/
  | json (indent : Int)
  /-- A language that is converted line by line, with a mark in front of every result. -/
  | lines (language : String) (mark : String)
  deriving DecidableEq, Repr

namespace ConverterSet

/-- The tag of the language. -/
def language : ConverterSet → String
  | .script => "js"
  | .json _ => "json"
  | .lines language _ => language

/-- The conversion in a direction. -/
def convert : ConverterSet → Direction → Convert
  | .script, .toLenient => Script.toLenient
  | .script, .toCanonical => Script.toCanonical
  | .script, .normalize => Script.normalize
  | .json indent, .toLenient => Json.toLenient indent
  | .json indent, .toCanonical => Json.toCanonical indent
  | .json indent, .normalize => Json.normalize indent
  | .lines _ mark, d => Lines.convert (Text.ofString mark) d

end ConverterSet

end Dialects

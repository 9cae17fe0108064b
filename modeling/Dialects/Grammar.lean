import Dialects.Text.LowerCase

/-!
# Paths and grammars

A document's grammar is guessed from the suffix of its path. The suffix is compared in lower case.
-/

namespace Dialects

/-- A path: how many slashes it starts with, and the names between slashes. -/
structure Path where
  /-- The slashes at the start: none, one, or two if the text starts with exactly two. -/
  root : List Char
  /-- The names; neither empty ones nor single dots are kept. -/
  parts : List (List Char)
  deriving DecidableEq, Repr

namespace Path

/-- The pieces of a list of characters between slashes. -/
def pieces : List Char → List (List Char)
  | [] => [[]]
  | c :: cs =>
    if c = '/' then [] :: pieces cs
    else match pieces cs with
      | piece :: rest => (c :: piece) :: rest
      | [] => [[c]]

/-- The path that a text spells. -/
def ofString (s : String) : Path :=
  let cs := s.toList
  let slashes := (cs.takeWhile (· == '/')).length
  let root := if slashes = 0 then [] else if slashes = 2 then ['/', '/'] else ['/']
  ⟨root, (pieces cs).filter fun p => p ≠ [] ∧ p ≠ ['.']⟩

/-- The text of a path; the path of no names is a dot. -/
def toString (p : Path) : String :=
  let names := ['/'].intercalate p.parts
  match p.root ++ names with
  | [] => "."
  | cs => String.ofList cs

/-- The suffix of a name: what follows the last dot, with the dot, unless that is its first or its
last character. -/
def suffixOf (name : List Char) : List Char :=
  let suffix := (name.reverse.takeWhile (· ≠ '.')).reverse
  if suffix = [] || suffix.length + 1 ≥ name.length then [] else '.' :: suffix

/-- The suffix of the last name in lower case. -/
def suffix (p : Path) : Text :=
  match p.parts.getLast? with
  | none => []
  | some name => Text.toLower ((suffixOf name).map CodePoint.scalar)

/-- The same path, spelled without needless dots and slashes. -/
def normal (s : String) : String := (ofString s).toString

end Path

/-- What the editor knows of a document's language. Only the scope decides on the dialect. -/
structure Grammar where
  /-- The scope. -/
  scope : String
  /-- The name shown. -/
  name : String
  deriving DecidableEq, Repr

namespace Grammar

/-- Plain text. -/
def plainText : Grammar := ⟨"text.plain", "Plain Text"⟩

/-- Scripts. -/
def script : Grammar := ⟨"source.js", "JavaScript"⟩

/-- JSON documents. -/
def json : Grammar := ⟨"source.json", "JSON"⟩

/-- The grammars of some suffixes. -/
def bySuffix : List (Text × Grammar) :=
  [(Text.ofString ".js", script), (Text.ofString ".mjs", script), (Text.ofString ".cjs", script),
    (Text.ofString ".json", json)]

/-- The grammar guessed for a document, which may have no path. -/
def forPath : Option String → Grammar
  | none => plainText
  | some s => (bySuffix.lookup (Path.ofString s).suffix).getD plainText

end Grammar

/-- The tag of the language guessed for a file. -/
def languageForPath (s : String) : String :=
  if (Path.ofString s).suffix = Text.ofString ".json" then "json" else "js"

end Dialects

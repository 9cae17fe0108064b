import Dialects.Json.Literal
import Dialects.Json.Value

/-!
# Documents as text

A document is printed with every item and every member on a line of its own, indented by its depth.
The two dialects differ in two points: the lenient one leaves out the comma at the end of a line,
and the quotes of a key that is a word and stands for no value.
-/

namespace Dialects.Json

open CodePoint (scalar)

/-- The dialect in which a document is printed. -/
inductive Style where
  /-- With commas and with quotes around every key. -/
  | canonical
  /-- Without commas, and with quotes only around keys that need them. -/
  | lenient
  deriving DecidableEq, Repr

/-- How a document is printed. -/
structure Layout where
  /-- The dialect. -/
  style : Style
  /-- The number of spaces by which nested values are indented. -/
  indent : Nat
  deriving DecidableEq, Repr

namespace Layout

/-- The spaces in front of a line at some depth. -/
def margin (l : Layout) (level : Nat) : Text := List.replicate (l.indent * level) (scalar ' ')

/-- What separates the items of an array and the members of an object. -/
def separator (l : Layout) : Text :=
  match l.style with
  | .canonical => [scalar ',', Text.newline]
  | .lenient => [Text.newline]

/-- A key as it is printed. -/
def key (l : Layout) (k : Text) : Text :=
  if l.style = .lenient && isWord k && (reserved? k).isNone then k else encodeString k

/-- Items, each on a line of its own, between brackets; `level` is the depth of the brackets. -/
def enclose (l : Layout) (opener closer : Char) (level : Nat) (items : List Text) : Text :=
  if items.isEmpty then [scalar opener, scalar closer]
  else
    [scalar opener, Text.newline] ++
      l.separator.intercalate (items.map (l.margin (level + 1) ++ ·)) ++
      Text.newline :: l.margin level ++ [scalar closer]

mutual

/-- A value at some depth. As in reading, there is no limit to recursion, so that values of any depth
are printed. -/
def value (l : Layout) (level : Nat) : Value → Text
  | .null => Text.ofString "null"
  | .bool true => Text.ofString "true"
  | .bool false => Text.ofString "false"
  | .number spelling => spelling
  | .string content => encodeString content
  | .array items => l.enclose '[' ']' level (l.items (level + 1) items)
  | .object members => l.enclose '{' '}' level (l.members (level + 1) members)

/-- The items of an array at some depth. -/
def items (l : Layout) (level : Nat) : List Value → List Text
  | [] => []
  | v :: vs => l.value level v :: l.items level vs

/-- The members of an object at some depth. -/
def members (l : Layout) (level : Nat) : List (Text × Value) → List Text
  | [] => []
  | (k, v) :: ms => (l.key k ++ [scalar ':', scalar ' '] ++ l.value level v) :: l.members level ms

end

/-- A whole document. -/
def document (l : Layout) (v : Value) : Text := l.value 0 v ++ [Text.newline]

end Layout

end Dialects.Json

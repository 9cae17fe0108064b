import Dialects.Text.CodePoint

/-!
# JSON documents

A document is a tree. Objects keep all their members in order, also those of equal keys, and
numbers keep their spelling, so that a document loses nothing on the way from one dialect to the
other.
-/

namespace Dialects.Json

/-- A JSON document. -/
inductive Value where
  /-- The word `null`. -/
  | null
  /-- One of the words `true` and `false`. -/
  | bool (b : Bool)
  /-- A number as it is spelled. -/
  | number (spelling : Text)
  /-- A string. -/
  | string (content : Text)
  /-- An array. -/
  | array (items : List Value)
  /-- An object, as its keys and values in order. -/
  | object (members : List (Text × Value))

/-- The words that stand for values, and the values. -/
def reserved : List (Text × Value) :=
  [(Text.ofString "true", .bool true), (Text.ofString "false", .bool false),
   (Text.ofString "null", .null)]

/-- The value that a word stands for. -/
def reserved? (word : Text) : Option Value := reserved.lookup word

/-- Whether a code point can start a word. -/
def startsWord (c : CodePoint) : Bool :=
  c.isLatinLetter || c == .scalar '_' || c == .scalar '$'

/-- Whether a code point can stand in a word. -/
def continuesWord (c : CodePoint) : Bool := startsWord c || c.isDigit

/-- Whether a text is a word: letters, digits, low lines and dollar signs, no digit first. -/
def isWord : Text → Bool
  | [] => false
  | c :: t => startsWord c && t.all continuesWord

end Dialects.Json

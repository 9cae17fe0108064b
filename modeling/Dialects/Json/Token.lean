import Dialects.Text.Blank
import Dialects.Failure
import Dialects.Json.Literal
import Dialects.Json.Value

/-!
# Tokens of a JSON document

Both dialects are made of the same tokens. They differ in what may stand between tokens, in the
words that they admit, and in when a piece of text that is no token is reported: in the lenient
dialect at once, in the canonical one when it is reached.
-/

namespace Dialects.Json

open CodePoint (scalar)

/-- What is wrong with a document. -/
structure Fault where
  /-- The wording. -/
  reason : String
  /-- The offset of the fault; none if it is not reported. -/
  offset : Option Nat
  deriving DecidableEq, Repr

namespace Fault

/-- A fault at an offset. -/
def atOffset (reason : String) (offset : Nat) : Fault := ⟨reason, some offset⟩

/-- The fault as a failure to read the given text. -/
def toFailure (text : Text) (f : Fault) : Failure :=
  match f.offset with
  | some n => .malformedAt f.reason text n
  | none => .malformed f.reason none none

end Fault

/-- The sort of a token. -/
inductive Kind where
  /-- A bracket, a brace, a colon or a comma. -/
  | punctuation
  /-- A string with its quotes. -/
  | string
  /-- A number. -/
  | number
  /-- A word. -/
  | word
  /-- A code point that starts no token. -/
  | junk
  deriving DecidableEq, Repr

/-- A piece of a document. -/
structure Token where
  /-- The sort of the token. -/
  kind : Kind
  /-- The text that the token covers. -/
  text : Text
  /-- How many code points of the document precede the token. -/
  offset : Nat
  deriving DecidableEq, Repr

namespace Token

/-- Whether the token is this punctuation mark. -/
def isMark (t : Token) (c : Char) : Bool := t.kind == .punctuation && t.text == [scalar c]

/-- Whether a code point is a punctuation mark. -/
def isPunctuation (c : CodePoint) : Bool :=
  [scalar '{', scalar '}', scalar '[', scalar ']', scalar ':', scalar ','].contains c

end Token

/-! ## The canonical dialect -/

namespace Canonical

/-- The blanks of the canonical dialect. -/
def isBlank (c : CodePoint) : Bool :=
  [scalar ' ', scalar '\t', scalar '\n', scalar '\r'].contains c

/-- The words of the canonical dialect; those that stand for no value are recognised so as to be
refused by name. -/
def words : List Text :=
  ["null", "true", "false", "NaN", "Infinity", "-Infinity"].map Text.ofString

/-- The sort of the token at the start of a text and how many code points it covers besides the
first. A string without an end covers the rest of the text. -/
def tokenAt (c : CodePoint) (rest : Text) : Kind × Nat :=
  if Token.isPunctuation c then (.punctuation, 0)
  else if c = scalar '"' then (.string, (closingLength? true rest).getD rest.length)
  else match words.find? (Text.startsWith (c :: rest) ·) with
    | some w => (.word, w.length - 1)
    | none =>
      match numberLength (c :: rest) with
      | 0 => (.junk, 0)
      | n + 1 => (.number, n)

/-- The tokens of a text whose first code point has the given offset. -/
def lexFrom (offset : Nat) (text : Text) : List Token :=
  match text with
  | [] => []
  | c :: rest =>
    if isBlank c then lexFrom (offset + 1) rest
    else
      let (kind, n) := tokenAt c rest
      ⟨kind, c :: rest.take n, offset⟩ :: lexFrom (offset + 1 + n) (rest.drop n)
termination_by text.length
decreasing_by all_goals (simp only [List.length_cons, List.length_drop]; omega)

/-- The tokens of a text in the canonical dialect. -/
def lex (text : Text) : List Token := lexFrom 0 text

end Canonical

/-! ## The lenient dialect -/

namespace Lenient

/-- The length of a comment's text up to and including the mark that closes it. -/
def blockLength? : Text → Option Nat
  | [] => none
  | scalar '*' :: scalar '/' :: _ => some 2
  | _ :: t => (blockLength? t).map (· + 1)

/-- The length of the blank space or comment at the start of a text, zero if there is none. -/
def gapLength (t : Text) : Nat :=
  match t with
  | scalar '/' :: scalar '/' :: rest => Text.spanLength (· ≠ Text.newline) rest + 2
  | scalar '/' :: scalar '*' :: rest =>
    match blockLength? rest with
    | none => 0
    | some n => n + 2
  | _ => Text.spanLength CodePoint.isBlank t

/-- The sort of the token at the start of a text and how many code points it covers besides the
first, if a token starts there. -/
def tokenAt? (c : CodePoint) (rest : Text) : Option (Kind × Nat) :=
  if Token.isPunctuation c then some (.punctuation, 0)
  else if c = scalar '"' then (closingLength? false rest).map (Kind.string, ·)
  else match numberLength (c :: rest) with
    | n + 1 => some (.number, n)
    | 0 => if startsWord c then some (.word, Text.spanLength continuesWord rest) else none

/-- The tokens of a text whose first code point has the given offset. -/
def lexFrom (offset : Nat) (text : Text) : Except Fault (List Token) :=
  match text with
  | [] => .ok []
  | c :: rest =>
    match gapLength (c :: rest) with
    | n + 1 => lexFrom (offset + 1 + n) (rest.drop n)
    | 0 =>
      match tokenAt? c rest with
      | none => .error (.atOffset ("Unexpected character " ++ Text.quoted [c]) offset)
      | some (kind, n) =>
        (lexFrom (offset + 1 + n) (rest.drop n)).map (⟨kind, c :: rest.take n, offset⟩ :: ·)
termination_by text.length
decreasing_by all_goals (simp only [List.length_cons, List.length_drop]; omega)

/-- The tokens of a text in the lenient dialect. -/
def lex (text : Text) : Except Fault (List Token) := lexFrom 0 text

end Lenient

end Dialects.Json

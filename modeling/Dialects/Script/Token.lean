import Dialects.Text.Blank

/-!
# Tokens of a script

A script is a sequence of tokens, each with the piece of text that it covers. Of a token's sort
only as much is kept as the placing of semicolons depends on.
-/

namespace Dialects.Script

/-- The sort of a token. -/
inductive Kind where
  /-- A comment. -/
  | comment
  /-- A bracket, comma, semicolon, dot or arrow. -/
  | punctuation
  /-- An operator, those spelled as words included. -/
  | operator
  /-- A reserved word, or a word that is reserved in some places. -/
  | keyword
  /-- A backtick, or a piece of the text between backticks. -/
  | template
  /-- Anything else: names, numbers, strings, regular expressions, blank space and the marks of
  an interpolation. -/
  | other
  deriving DecidableEq, Repr

/-- A piece of a script. -/
structure Token where
  /-- How many code points of the script precede the token. -/
  offset : Nat
  /-- The sort of the token. -/
  kind : Kind
  /-- The text that the token covers. -/
  value : Text
  deriving DecidableEq, Repr

/-- The three pairs of brackets. -/
inductive Bracket where
  /-- `(` and `)`. -/
  | round
  /-- `[` and `]`. -/
  | square
  /-- `{` and `}`. -/
  | curly
  deriving DecidableEq, Repr

namespace Bracket

/-- The bracket that opens a pair. -/
def opener : Bracket → Char
  | .round => '('
  | .square => '['
  | .curly => '{'

/-- The bracket that closes a pair. -/
def closer : Bracket → Char
  | .round => ')'
  | .square => ']'
  | .curly => '}'

end Bracket

namespace Token

/-- Whether the token is spelled like this. -/
def spells (t : Token) (s : String) : Bool := t.value == Text.ofString s

/-- Whether the token is a comment. -/
def isComment (t : Token) : Bool := t.kind == .comment

/-- Whether the token is more than blank space or a comment. -/
def isSignificant (t : Token) : Bool := !Text.isBlank t.value && !t.isComment

/-- Whether the token is blank space or a comment that extends over the end of a line. -/
def breaksLine (t : Token) : Bool :=
  t.value.contains Text.newline && (Text.isBlank t.value || t.isComment)

/-- The pair that the token opens. -/
def opens? (t : Token) : Option Bracket :=
  if t.kind = .punctuation then
    [Bracket.round, .square, .curly].find? fun b => t.value == [.scalar b.opener]
  else none

/-- The pair that the token closes. -/
def closes? (t : Token) : Option Bracket :=
  if t.kind = .punctuation then
    [Bracket.round, .square, .curly].find? fun b => t.value == [.scalar b.closer]
  else none

/-- Whether the token is a semicolon. -/
def isSemicolon (t : Token) : Bool := t.kind == .punctuation && t.spells ";"

/-- The text that a list of tokens covers. -/
def join (ts : List Token) : Text := ts.flatMap Token.value

/-- The first token that is more than blank space or a comment. -/
def nextSignificant? (ts : List Token) : Option Token := ts.find? Token.isSignificant

/-- Whether a line ends before the first token: no significant token comes before the next line
break. -/
def lineEnds : List Token → Bool
  | [] => true
  | t :: ts => t.breaksLine || (!t.isSignificant && lineEnds ts)

end Token

end Dialects.Script

import Dialects.Script.Lenient

/-!
# The canonical dialect of scripts

In the canonical dialect every statement that ends with its line has a semicolon. A semicolon is
added after the last significant token of a line if that token stands where statements stand and
can end one, and if the next line does not go on with it. To know where statements stand, every
open bracket is classified by the token before it.
-/

namespace Dialects.Script

/-- What a bracket opens. -/
inductive Opener where
  /-- The head of a control statement, as in `if (…)`. -/
  | head
  /-- Any other pair of round brackets. -/
  | group
  /-- A pair of square brackets. -/
  | index
  /-- A block or a body, which holds statements or members. -/
  | block
  /-- An object literal. -/
  | object
  deriving DecidableEq, Repr

namespace Canonical

/-- Reserved words that a head in round brackets follows. -/
def controlWords : List Text := spellings ["if", "for", "while", "with", "switch", "catch"]

/-- What no statement ends with. -/
def openEnds : List Text :=
  spellings ["\x7b", "(", "[", ",", ";", ".", "=>", "...", "\x7d"]

/-- Reserved words that no statement ends with. -/
def openWords : List Text := spellings ["else", "do", "try", "finally"]

/-- The operators that may follow their operand. -/
def postfixOperators : List Text := spellings ["++", "--"]

/-- The operators that may precede their operand. -/
def prefixOperators : List Text :=
  spellings ["++", "--", "!", "~", "typeof", "void", "delete", "new"]

/-- What goes on with the line before, at the start of a line. -/
def continuations : List Text :=
  spellings [".", ")", "]", ",", "?", ":", "=>", "\x7b", "(", "[", "`"]

/-- What an opening brace makes an object literal after; of a `default` only an export is meant,
for a clause has a colon in between. -/
def objectLeads : List Text := spellings ["(", "[", ",", "return", "...", "default"]

/-- Whether the token is an operator whose right operand is still to come. -/
def awaitsOperand (t : Token) : Bool :=
  t.kind == .operator && !postfixOperators.contains t.value

/-- Whether a statement can end with the token, which may close a bracket. -/
def endsStatement (t : Token) (closed : Option Opener) : Bool :=
  -- The brace at the end of an object literal is the only closing brace that ends a statement.
  if closed = some .object then true
  else if openEnds.contains t.value then false
  else if awaitsOperand t then false
  else if t.kind = .keyword && openWords.contains t.value then false
  else closed ≠ some .head

/-- Whether a line that starts with the token goes on with the line before. -/
def continuesLine (t : Token) : Bool :=
  continuations.contains t.value || joinsLine t || t.kind == .template ||
    (t.kind == .operator && !prefixOperators.contains t.value)

/-- What a bracket opens, given the significant token before it and whether that is the colon of a
label or of a clause. -/
def classify (b : Bracket) (before : Option Token) (afterLabel : Bool) : Opener :=
  match b with
  | .round =>
    if before.any fun t => t.kind == .keyword && controlWords.contains t.value then .head
    else .group
  | .square => .index
  | .curly =>
    if afterLabel then .block
    else if before.any fun t => awaitsOperand t || objectLeads.contains t.value then .object
    else .block

/-- Whether a question mark token belongs to an optional chain: a dot follows at once. -/
def startsChain (t : Token) (rest : List Token) : Bool :=
  match rest with
  | [] => false
  | next :: _ => next.spells "." && next.offset == t.offset + 1

/-- What is known of the tokens before a place. -/
structure Context where
  /-- What the open brackets opened, innermost first. -/
  openers : List Opener
  /-- For each level of nesting, innermost first and the script itself last, the question marks
  that still wait for their colon. -/
  conditionals : List Nat
  /-- The last significant token. -/
  last : Option Token
  /-- Whether that token is the colon of a label or of a clause. -/
  afterLabel : Bool
  deriving DecidableEq, Repr

namespace Context

/-- What is known at the start of a script. -/
def initial : Context := ⟨[], [0], none, false⟩

/-- Whether statements stand directly inside the innermost open bracket. -/
def inStatements (c : Context) : Bool :=
  match c.openers with
  | [] => true
  | o :: _ => o == .block

/-- Enters or leaves a bracket. -/
def nest (c : Context) (t : Token) : Context :=
  match t.opens?, t.closes? with
  | some b, _ =>
    { c with
      openers := classify b c.last c.afterLabel :: c.openers
      conditionals := 0 :: c.conditionals }
  | none, some _ => { c with openers := c.openers.tail, conditionals := c.conditionals.tail }
  | none, none => c

/-- What the token closes. -/
def closed (c : Context) (t : Token) : Option Opener :=
  match t.opens?, t.closes? with
  | none, some _ => c.openers.head?
  | _, _ => none

/-- Counts a question mark, or finds the one that a colon answers; a colon that answers none where
statements stand is that of a label or of a clause. -/
def answer (c : Context) (t : Token) (rest : List Token) : Context :=
  match c.conditionals with
  | [] => { c with afterLabel := false }
  | n :: outer =>
    if t.kind = .operator && t.spells "?" && !startsChain t rest then
      { c with conditionals := (n + 1) :: outer, afterLabel := false }
    else if t.kind = .operator && t.spells ":" then
      -- A colon answers the last question mark of its own level, if one still waits.
      if n = 0 then { c with afterLabel := c.inStatements }
      else { c with conditionals := (n - 1) :: outer, afterLabel := false }
    else { c with afterLabel := false }

/-- What is known after a significant token. -/
def after (c : Context) (t : Token) (rest : List Token) : Context :=
  { (c.nest t).answer t rest with last := some t }

end Context

/-- Whether a semicolon is added after a significant token, given what is known before it and what
follows it. -/
def lacksSemicolon (c : Context) (t : Token) (rest : List Token) : Bool :=
  Token.lineEnds rest && (c.after t rest).inStatements && endsStatement t (c.closed t) &&
    !(Token.nextSignificant? rest).any continuesLine

/-- For each token, whether a semicolon is added after it. -/
def lacking (c : Context) : List Token → List Bool
  | [] => []
  | t :: ts =>
    if t.isSignificant then lacksSemicolon c t ts :: lacking (c.after t ts) ts
    else false :: lacking c ts

/-- The text of the tokens, with a semicolon after those that are marked. -/
def join (ts : List Token) (marks : List Bool) : Text :=
  (List.zipWith (fun (t : Token) mark => if mark then t.value ++ [.scalar ';'] else t.value)
    ts marks).flatten

end Canonical

/-- The script in the canonical dialect. -/
def toCanonical (script : Text) : Except Failure Text :=
  (tokens script).map fun ts => Canonical.join ts (Canonical.lacking .initial ts)

/-- A script in the lenient dialect with its semicolons where that dialect needs them, and only
there. -/
def normalize (script : Text) : Except Failure Text := do
  toLenient (← toCanonical script)

end Dialects.Script

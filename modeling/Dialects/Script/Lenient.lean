import Dialects.Script.Lexer
import Dialects.Script.Brackets

/-!
# The lenient dialect of scripts

In the lenient dialect a semicolon that ends a statement at the end of a line is left out, unless
the next line could be taken for a continuation of this one. Nothing else of the script changes.
-/

namespace Dialects.Script

/-- The tokens of a script whose brackets match. -/
def tokens (script : Text) : Except Failure (List Token) :=
  match lex script with
  | .error f => .error (f.toFailure script)
  | .ok ts =>
    match checkBrackets [] ts with
    | .error f => .error (f.toFailure script)
    | .ok () => .ok ts

/-- Whether a line that starts with this token could be taken for a continuation of the line
before, were there no semicolon. -/
def joinsLine (t : Token) : Bool :=
  match t.value.head? with
  | some (.scalar c) => ['(', '[', '`', '/'].contains c
  | _ => false

namespace Lenient

/-- Whether statements stand directly inside the innermost open bracket. -/
def inStatements (pending : List Bracket) : Bool :=
  match pending with
  | [] => true
  | b :: _ => b == .curly

/-- Whether the lenient dialect leaves out the token, given what follows it. -/
def isRedundant (pending : List Bracket) (t : Token) (rest : List Token) : Bool :=
  t.isSemicolon && inStatements pending && Token.lineEnds rest &&
    !(Token.nextSignificant? rest).any joinsLine

/-- For each token, whether the lenient dialect leaves it out, given the brackets already open,
innermost first. -/
def redundant (pending : List Bracket) : List Token → List Bool
  | [] => []
  | t :: ts =>
    match t.opens?, t.closes? with
    | some b, _ => false :: redundant (b :: pending) ts
    | none, some _ => false :: redundant pending.tail ts
    | none, none => isRedundant pending t ts :: redundant pending ts

/-- The tokens that are kept. -/
def kept (ts : List Token) : List Token :=
  ((ts.zip (redundant [] ts)).filter fun p => !p.2).map Prod.fst

end Lenient

/-- The script in the lenient dialect. -/
def toLenient (script : Text) : Except Failure Text :=
  (tokens script).map fun ts => Token.join (Lenient.kept ts)

end Dialects.Script

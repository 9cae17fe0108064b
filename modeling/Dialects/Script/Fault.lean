import Dialects.Failure
import Dialects.Script.Token

/-!
# Faults of a script

A script cannot be converted if a character starts no token, or if its brackets do not match.
-/

namespace Dialects.Script

/-- What is wrong with a script, and where. -/
inductive Fault where
  /-- No token starts with this code point. -/
  | unexpectedCharacter (offset : Nat) (c : CodePoint)
  /-- A bracket closes what is not open, or not what was opened last. -/
  | unexpectedCloser (offset : Nat) (b : Bracket)
  /-- A bracket is still open at the end. -/
  | unclosed (offset : Nat) (b : Bracket)
  deriving DecidableEq, Repr

namespace Fault

/-- The offset of the code point at fault. -/
def offset : Fault → Nat
  | .unexpectedCharacter n _ | .unexpectedCloser n _ | .unclosed n _ => n

/-- The wording of a fault. -/
def reason : Fault → String
  | .unexpectedCharacter _ c => "Unexpected character " ++ Text.quoted [c]
  | .unexpectedCloser _ b => "Unexpected " ++ Text.quoted [.scalar b.closer]
  | .unclosed _ b => "Unclosed " ++ Text.quoted [.scalar b.opener]

/-- The fault of a given script as a failure, with line and column. -/
def toFailure (script : Text) (f : Fault) : Failure := .malformedAt f.reason script f.offset

end Fault

end Dialects.Script

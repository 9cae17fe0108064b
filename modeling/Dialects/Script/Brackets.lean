import Dialects.Script.Fault

/-!
# Matching brackets

A script can be converted only if its brackets match. The first bracket that closes the wrong
pair is at fault, or else the last one opened that stays open.
-/

namespace Dialects.Script

/-- Checks the brackets of a list of tokens, given the brackets already open, innermost first. -/
def checkBrackets : (pending : List (Nat × Bracket)) → List Token → Except Fault Unit
  | [], [] => .ok ()
  | (offset, b) :: _, [] => .error (.unclosed offset b)
  | pending, t :: ts =>
    match t.opens?, t.closes? with
    | some b, _ => checkBrackets ((t.offset, b) :: pending) ts
    | none, none => checkBrackets pending ts
    | none, some b =>
      match pending with
      | (_, b') :: outer =>
        if b = b' then checkBrackets outer ts else .error (.unexpectedCloser t.offset b)
      | [] => .error (.unexpectedCloser t.offset b)

end Dialects.Script

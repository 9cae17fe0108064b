import Dialects.Json.Printer
import Dialects.Json.Reader

/-!
# Converting JSON documents

A document is converted by reading it in one dialect and printing it in the other. A blank text is
converted to the empty one. Nested values are indented by at least one space.
-/

namespace Dialects.Json

/-- Reads a text and prints it; nothing is made of a blank text. -/
def reprint (parse : Text → Except Fault Value) (layout : Layout) (text : Text) :
    Except Failure Text :=
  if Text.isBlank text then .ok []
  else match parse text with
    | .ok v => .ok (layout.document v)
    | .error f => .error (f.toFailure text)

/-- The document in the lenient dialect. -/
def toLenient (indent : Int) (text : Text) : Except Failure Text :=
  reprint Canonical.parse ⟨.lenient, (max 1 indent).toNat⟩ text

/-- The document in the canonical dialect. -/
def toCanonical (indent : Int) (text : Text) : Except Failure Text :=
  reprint Lenient.parse ⟨.canonical, (max 1 indent).toNat⟩ text

/-- A document in the lenient dialect, laid out anew. -/
def normalize (indent : Int) (text : Text) : Except Failure Text :=
  reprint Lenient.parse ⟨.lenient, (max 1 indent).toNat⟩ text

end Dialects.Json

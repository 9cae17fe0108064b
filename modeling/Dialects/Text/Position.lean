import Dialects.Text.CodePoint

/-!
# Positions

A position names a place in a text by line and column, both counted from one. Only a line feed
ends a line, and a place beyond the end of the text counts as further along its last line.
-/

namespace Dialects

/-- A place in a text, both numbers counted from one. -/
structure Position where
  /-- One more than the number of line feeds before the place. -/
  line : Nat
  /-- One more than the number of code points between the start of the line and the place. -/
  column : Nat
  deriving DecidableEq, Repr

namespace Text

/-- The position `offset` code points after a place with the given position. -/
def positionFrom (line column : Nat) : Text → (offset : Nat) → Position
  | _, 0 => ⟨line, column⟩
  | [], n + 1 => ⟨line, column + (n + 1)⟩
  | c :: t, n + 1 =>
    if c = newline then positionFrom (line + 1) 1 t n else positionFrom line (column + 1) t n

/-- The position of an offset. -/
def position (t : Text) (offset : Nat) : Position := positionFrom 1 1 t offset

end Text

end Dialects

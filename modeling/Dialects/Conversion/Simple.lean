import Dialects.Conversion.Basic

/-!
# Simple conversions

A conversion in general, as a stream or a handle may be given one: that of a language, or one of a
few that need no grammar.
-/

namespace Dialects

/-- A conversion, by what it does. -/
inductive Conversion where
  /-- The conversion of a language in a direction. -/
  | ofSet (set : ConverterSet) (direction : Direction)
  /-- Leaves the text as it is. -/
  | keep
  /-- Adds a line feed. -/
  | endLine
  /-- Puts the text between angle brackets. -/
  | bracket
  /-- Takes the semicolon off the end of each line. -/
  | strip
  /-- Adds a semicolon at the end of each line. -/
  | add
  /-- Fails. -/
  | fail (failure : Failure)
  deriving DecidableEq, Repr

/-- Carries out a conversion. -/
def Conversion.apply : Conversion → Convert
  | .ofSet set d => set.convert d
  | .keep => .ok
  | .endLine => fun t => .ok (t ++ [Text.newline])
  | .bracket => fun t => .ok (.scalar '<' :: t ++ [.scalar '>'])
  | .strip => fun t => .ok (Lines.strip t)
  | .add => fun t => .ok (Lines.add t)
  | .fail f => fun _ => .error f

end Dialects

import Dialects.Text.Blank
import Dialects.Text.Numeral

/-!
# Integers in text

An integer is written with decimal digits of any script, an optional sign before them, and single
underscores between them. Blanks around it do not matter.
-/

namespace Dialects.Text

/-- The largest number of digits that an integer may have. -/
def maxDigits : Nat := 4300

/-- The values of the digits of an unsigned integer. -/
def digits? (t : Text) : Option (List Nat) :=
  let groups := t.splitOn (.scalar '_')
  if groups.all fun g => g ≠ [] && g.all CodePoint.isDecimal then
    some (groups.flatten.filterMap CodePoint.decimalValue?)
  else none

/-- The number that digits spell, the most significant one first. -/
def ofDigits (ds : List Nat) : Nat := ds.foldl (fun n d => 10 * n + d) 0

/-- The unsigned integer that a text spells. -/
def toNat? (t : Text) : Option Nat :=
  match digits? t with
  | some ds => if ds.length ≤ maxDigits then some (ofDigits ds) else none
  | none => none

/-- The integer that a text spells. -/
def toInt? (t : Text) : Option Int :=
  match t.trim with
  | .scalar '-' :: rest => (toNat? rest).map fun n => -(n : Int)
  | .scalar '+' :: rest => (toNat? rest).map Int.ofNat
  | rest => (toNat? rest).map Int.ofNat

end Dialects.Text

import Dialects.Text.CodePoint

/-!
# Classes of code points

A class of code points is a list of closed ranges in ascending order, so that a look-up can stop
at the first range beyond the number asked for.
-/

namespace Dialects

/-- A set of code point numbers: closed ranges, ascending and disjoint. -/
abbrev Ranges := List (Nat × Nat)

namespace Ranges

/-- Whether a number lies in one of the ranges. -/
def contains : Ranges → Nat → Bool
  | [], _ => false
  | (lo, hi) :: rest, n => if n < lo then false else n ≤ hi || contains rest n

/-- Whether the ranges are in ascending order and do not touch. -/
def isAscending : Ranges → Bool
  | [] => true
  | [(lo, hi)] => lo ≤ hi
  | (lo, hi) :: (lo', hi') :: rest =>
    lo ≤ hi && hi + 1 < lo' && isAscending ((lo', hi') :: rest)

end Ranges

end Dialects

/-!
# Text as code points

A text is a list of Unicode code points. Text decoded from a file holds scalar values only, but
an escape in a JSON string may denote a surrogate that has no partner, so a text may hold lone
surrogates as well. A text without them is a `String`: `toString?` gives it back.
-/

namespace Dialects

/-- A Unicode code point: a scalar value, or one of the 2048 surrogates. -/
inductive CodePoint where
  /-- A Unicode scalar value. -/
  | scalar (c : Char)
  /-- The surrogate `0xD800 + offset`. -/
  | surrogate (offset : Fin 2048)
  deriving DecidableEq, Repr

namespace CodePoint

instance : Inhabited CodePoint := ⟨.scalar default⟩

instance : Coe Char CodePoint := ⟨.scalar⟩

/-- The number of the code point, below `0x110000`. -/
def val : CodePoint → Nat
  | .scalar c => c.toNat
  | .surrogate n => 0xD800 + n.val

/-- The code point of a number; numbers from `0x110000` on have none. -/
def ofNat? (n : Nat) : Option CodePoint :=
  if h : n.isValidChar then some (.scalar (Char.ofNatAux n h))
  else if h : 0xD800 ≤ n ∧ n < 0xE000 then some (.surrogate ⟨n - 0xD800, by omega⟩)
  else none

/-- Whether the code point is a scalar value, which every encoding of text can hold. -/
def isScalar : CodePoint → Bool
  | .scalar _ => true
  | .surrogate _ => false

/-- The character, if the code point is a scalar value. -/
def toChar? : CodePoint → Option Char
  | .scalar c => some c
  | .surrogate _ => none

/-- Whether the code point lies between two characters, both included. -/
def isBetween (lo hi : Char) : CodePoint → Bool
  | .scalar c => lo ≤ c && c ≤ hi
  | .surrogate _ => false

/-- One of the digits `0` to `9`. -/
def isDigit (c : CodePoint) : Bool := c.isBetween '0' '9'

/-- One of the 52 unaccented Latin letters. -/
def isLatinLetter (c : CodePoint) : Bool := c.isBetween 'a' 'z' || c.isBetween 'A' 'Z'

/-- The value of a hexadecimal digit, in either case. -/
def hexValue? (c : CodePoint) : Option Nat :=
  if c.isDigit then some (c.val - 48)
  else if c.isBetween 'a' 'f' then some (c.val - 87)
  else if c.isBetween 'A' 'F' then some (c.val - 55)
  else none

/-- One of the hexadecimal digits, in either case. -/
def isHexDigit (c : CodePoint) : Bool := c.hexValue?.isSome

end CodePoint

/-- A sequence of code points. -/
abbrev Text := List CodePoint

namespace Text

/-- The code points of a string. -/
def ofString (s : String) : Text := s.toList.map CodePoint.scalar

/-- The string with these code points, if all of them are scalar values. -/
def toString? (t : Text) : Option String := (t.mapM CodePoint.toChar?).map String.ofList

/-- Whether every code point is a scalar value. -/
def isScalar (t : Text) : Bool := t.all CodePoint.isScalar

/-- The line feed, which alone ends a line. -/
def newline : CodePoint := .scalar '\n'

/-- What follows `lead` in a text that starts with it. -/
def after? : (lead text : Text) → Option Text
  | [], t => some t
  | _ :: _, [] => none
  | a :: lead, b :: t => if a = b then after? lead t else none

/-- Whether the text starts with `lead`. -/
def startsWith (text lead : Text) : Bool := (after? lead text).isSome

/-- How many code points at the start of the text satisfy `p`. -/
def spanLength (p : CodePoint → Bool) (text : Text) : Nat := (text.takeWhile p).length

/-- The pieces between separators: one more piece than there are separators. -/
def splitOn (sep : CodePoint) : Text → List Text
  | [] => [[]]
  | c :: t =>
    if c = sep then [] :: splitOn sep t
    else match splitOn sep t with
      | piece :: pieces => (c :: piece) :: pieces
      | [] => [[c]]

/-- The lines of a text; only a line feed ends one. -/
def lines (t : Text) : List Text := splitOn newline t

/-- Lines put together again, with a line feed between any two. -/
def unlines (ls : List Text) : Text := [newline].intercalate ls

/-- A text that comes from a string is a string again. -/
theorem toString?_ofString (s : String) : toString? (ofString s) = some s := by
  have h : ∀ l : List Char, (l.map CodePoint.scalar).mapM CodePoint.toChar? = some l := by
    intro l
    induction l with
    | nil => rfl
    | cons c l ih => simp [List.mapM_cons, ih, CodePoint.toChar?]
  simp [toString?, ofString, h]

/-- A string holds no surrogates. -/
theorem isScalar_ofString (s : String) : isScalar (ofString s) = true := by
  simp [isScalar, ofString, CodePoint.isScalar]

end Text

end Dialects

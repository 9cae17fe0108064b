import Dialects.Text.Printable

/-!
# Quoted text

How messages show a piece of text: between quotation marks, on one line, with every code point
that is not printable spelled as an escape. Single quotes are used unless the text holds a single
quote and no double quote.
-/

namespace Dialects

namespace Text

/-- A number in hexadecimal, with zeros in front up to the given width. -/
def hexadecimal (width n : Nat) : List Char :=
  let digits := Nat.toDigits 16 n
  List.replicate (width - digits.length) '0' ++ digits

/-- The escape that names a code point by its number, of the shortest of three widths. -/
def numberedEscape (n : Nat) : List Char :=
  if n < 0x100 then ['\\', 'x'] ++ hexadecimal 2 n
  else if n < 0x10000 then ['\\', 'u'] ++ hexadecimal 4 n
  else ['\\', 'U'] ++ hexadecimal 8 n

/-- What stands for a code point between quotation marks of the given kind. -/
def quotedUnit (mark : Char) : CodePoint → List Char
  | .surrogate n => numberedEscape (0xD800 + n.val)
  | .scalar c =>
    if c = '\\' || c = mark then ['\\', c]
    else if c = '\n' then ['\\', 'n']
    else if c = '\r' then ['\\', 'r']
    else if c = '\t' then ['\\', 't']
    else if (CodePoint.scalar c).isPrintable then [c]
    else numberedEscape c.toNat

/-- The quotation mark for a text. -/
def quotationMark (t : Text) : Char :=
  if t.contains (.scalar '\'') && !t.contains (.scalar '"') then '"' else '\''

/-- The text between quotation marks. -/
def quoted (t : Text) : String :=
  let mark := quotationMark t
  String.ofList (mark :: t.flatMap (quotedUnit mark) ++ [mark])

end Text

/-- The string between quotation marks. -/
def quote (s : String) : String := Text.quoted (Text.ofString s)

end Dialects

import Dialects.Text.Ranges

/-!
# Blank space

Blank code points are the white space of Unicode together with the four information separators
`U+001C` to `U+001F`. The zero-width space and the byte order mark are not blank.
-/

namespace Dialects

/-- The blank code points. -/
def CodePoint.blanks : Ranges :=
  [(0x0009, 0x000D), (0x001C, 0x0020), (0x0085, 0x0085), (0x00A0, 0x00A0), (0x1680, 0x1680),
   (0x2000, 0x200A), (0x2028, 0x2029), (0x202F, 0x202F), (0x205F, 0x205F), (0x3000, 0x3000)]

/-- A blank code point. -/
def CodePoint.isBlank (c : CodePoint) : Bool := CodePoint.blanks.contains c.val

namespace Text

/-- Whether a text holds nothing but blanks. -/
def isBlank (t : Text) : Bool := t.all CodePoint.isBlank

/-- The text without the blanks at its start. -/
def trimLeft (t : Text) : Text := t.dropWhile CodePoint.isBlank

/-- The text without the blanks at its end. -/
def trimRight (t : Text) : Text := (t.reverse.dropWhile CodePoint.isBlank).reverse

/-- The text without the blanks at either end. -/
def trim (t : Text) : Text := t.trimLeft.trimRight

end Text

end Dialects

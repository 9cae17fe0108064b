import Dialects.Text.Blank
import Dialects.Text.Letter
import Dialects.Text.Numeral
import Dialects.Text.Recent
import Dialects.Script.Token

/-!
# Lexemes of a script

For each sort of lexeme, how long the one at the start of a text is. Every function gives `none`
where the text starts with no such lexeme; a length that is given is positive.
-/

namespace Dialects

namespace CodePoint

/-- A code point of a word: a letter, a numeral or a low line. -/
def isWord (c : CodePoint) : Bool := c.isLetter || c.isNumeral || c == .scalar '_'

/-- A code point with which a name may start. A letter that Unicode 11 has as a mark is none. -/
def startsName (c : CodePoint) : Bool :=
  c == .scalar '$' || c == .scalar '_' ||
    ((c.isLetter || c.isLetterNumeral) && !c.isRecent && !c.isFormerMark)

/-- A code point with which a name may go on. -/
def continuesName (c : CodePoint) : Bool :=
  c == .scalar '$' || c == .scalar '\u200c' || c == .scalar '\u200d' ||
    ((c.isLetter || c.isLetterNumeral || c.isMark || c.isDecimal || c.isConnector) && !c.isRecent)

/-- What may start a name may also go on with it. -/
theorem continuesName_of_startsName {c : CodePoint} (h : c.startsName = true) :
    c.continuesName = true := by
  by_cases hc : c = .scalar '_'
  · subst hc
    decide
  · simp only [startsName, continuesName, Bool.or_eq_true, Bool.and_eq_true, beq_iff_eq] at h ⊢
    grind

end CodePoint

namespace Script.Lexeme

open CodePoint (scalar)

/-- A length, unless it is zero. -/
def positive? (n : Nat) : Option Nat := if n = 0 then none else some n

/-- A fixed spelling. -/
def exactly? (s : String) (t : Text) : Option Nat :=
  if Text.startsWith t (Text.ofString s) then some s.length else none

/-- Whether the first code point satisfies `p`. -/
def headIs (p : CodePoint → Bool) : Text → Bool
  | [] => false
  | c :: _ => p c

/-! ## Blank space and comments -/

/-- A run of blanks. -/
def blank? (t : Text) : Option Nat := positive? (Text.spanLength CodePoint.isBlank t)

/-- The length of the rest of a line, its line feed not included. -/
def lineLength (t : Text) : Nat := Text.spanLength (· ≠ Text.newline) t

/-- The length of a comment's text up to and including the mark that closes it. -/
def blockLength? : Text → Option Nat
  | [] => none
  | scalar '*' :: scalar '/' :: _ => some 2
  | _ :: t => (blockLength? t).map (· + 1)

/-- A comment: to the end of the line, between marks, or the mark that opens one in a page. -/
def comment? (t : Text) : Option Nat :=
  match t with
  | scalar '/' :: scalar '/' :: rest => some (lineLength rest + 2)
  | scalar '/' :: scalar '*' :: rest => (blockLength? rest).map (· + 2)
  | _ => exactly? "<!--" t

/-- The line that names an interpreter, at the very start of a script. -/
def shebang? : Text → Option Nat
  | scalar '#' :: scalar '!' :: scalar '/' :: rest => some (lineLength rest + 3)
  | scalar '#' :: scalar '!' :: scalar ' ' :: scalar '/' :: rest => some (lineLength rest + 4)
  | _ => none

/-! ## Numbers -/

/-- The length of an `n` that marks a number as an integer of any size. -/
def bigMark (t : Text) : Nat := if headIs (· == scalar 'n') t then 1 else 0

/-- Digits of some base, at least one, after `skip` code points. -/
def digits? (digit : CodePoint → Bool) (skip : Nat) (t : Text) : Option Nat :=
  match Text.spanLength digit (t.drop skip) with
  | 0 => none
  | n + 1 => some (skip + (n + 1) + bigMark (t.drop (skip + (n + 1))))

/-- A number in base two, eight or sixteen. -/
def basedNumber? (t : Text) : Option Nat :=
  match t with
  | scalar '0' :: scalar m :: _ =>
    if m = 'b' || m = 'B' then digits? (·.isBetween '0' '1') 2 t
    else if m = 'o' || m = 'O' then digits? (·.isBetween '0' '7') 2 t
    else if m = 'x' || m = 'X' then digits? (·.isHexDigit) 2 t
    else digits? (·.isBetween '0' '7') 1 t
  | _ => none

/-- A decimal integer that is marked as one of any size. -/
def bigNumber? (t : Text) : Option Nat :=
  match Text.spanLength (·.isDigit) t with
  | 0 => none
  | n + 1 => if bigMark (t.drop (n + 1)) = 1 then some (n + 2) else none

/-- The length of an exponent, zero if there is none. -/
def exponentLength : Text → Nat
  | scalar e :: t =>
    if e = 'e' || e = 'E' then
      let sign := if headIs (fun c => c == scalar '-' || c == scalar '+') t then 1 else 0
      match Text.spanLength (·.isDigit) (t.drop sign) with
      | 0 => 0
      | n + 1 => sign + n + 2
    else 0
  | _ => 0

/-- The length of a decimal number without its exponent, zero if there is none. -/
def mantissaLength (t : Text) : Nat :=
  match t with
  | scalar '.' :: rest =>
    match Text.spanLength (·.isDigit) rest with
    | 0 => 0
    | n + 1 => n + 2
  | _ =>
    match Text.spanLength (·.isDigit) t with
    | 0 => 0
    | n + 1 =>
      match t.drop (n + 1) with
      | scalar '.' :: rest => n + 2 + Text.spanLength (·.isDigit) rest
      | _ => n + 1

/-- A decimal number. -/
def decimalNumber? (t : Text) : Option Nat :=
  match mantissaLength t with
  | 0 => none
  | n + 1 => some (n + 1 + exponentLength (t.drop (n + 1)))

/-- A number. -/
def number? (t : Text) : Option Nat := basedNumber? t <|> bigNumber? t <|> decimalNumber? t

/-! ## Punctuation and operators -/

/-- An ellipsis or an arrow. -/
def longMark? (t : Text) : Option Nat := exactly? "..." t <|> exactly? "=>" t

/-- The operators that no equals sign can extend, in the order in which they are tried. -/
def closedOperators : List String := ["++", "--", "~", "??=", "??", "?", ":"]

/-- The operators that an equals sign may extend, in the order in which they are tried. -/
def openOperators : List String :=
  ["<<", ">>>", ">>", "==", "=", "!=", "!", "**", "||", "&&", "-", "<", ">", "+", "*", "%", "&",
    "|", "^", "/"]

/-- An operator that is not a word. A backslash is one before the end of a line. -/
def operator? (t : Text) : Option Nat :=
  match closedOperators.findSome? (exactly? · t) with
  | some n => some n
  | none =>
    match t with
    | scalar '\\' :: scalar '\n' :: _ => some 1
    | _ =>
      (openOperators.findSome? (exactly? · t)).map fun n =>
        if headIs (· == scalar '=') (t.drop n) then n + 1 else n

/-- One of a set of single characters. -/
def oneOf? (cs : List Char) : Text → Option Nat
  | scalar c :: _ => if cs.contains c then some 1 else none
  | _ => none

/-! ## Words and names -/

/-- One of a set of words, which no further word character may follow. -/
def word? (ws : List Text) (t : Text) : Option Nat :=
  let run := t.takeWhile CodePoint.isWord
  if ws.contains run then some run.length else none

/-- The length of a code point of a name that is spelled by its number, zero if there is none. -/
def escapedLength : Text → Nat
  | scalar '\\' :: scalar 'u' :: a :: b :: c :: d :: _ =>
    if a.isHexDigit && b.isHexDigit && c.isHexDigit && d.isHexDigit then 6 else 0
  | _ => 0

/-- How far a name goes on. -/
def nameLength : Text → Nat
  | scalar '\\' :: scalar 'u' :: a :: b :: c :: d :: t =>
    if a.isHexDigit && b.isHexDigit && c.isHexDigit && d.isHexDigit then nameLength t + 6 else 0
  | c :: t => if c.continuesName then nameLength t + 1 else 0
  | [] => 0

/-- A name. -/
def name? (t : Text) : Option Nat :=
  match escapedLength t with
  | 0 => if headIs CodePoint.startsName t then some (nameLength (t.drop 1) + 1) else none
  | n + 1 => some (n + 1 + nameLength (t.drop (n + 1)))

/-- A code point of a path: of a word, a dollar sign, a dot or a question mark. -/
def continuesPath (c : CodePoint) : Bool :=
  c.isWord || c == scalar '?' || c == scalar '.' || c == scalar '$'

/-- A path of names that heads the definition of a method without parameters. -/
def methodPath? (t : Text) : Option Nat :=
  let n := Text.spanLength continuesPath t
  if headIs (fun c => c.isLatinLetter || c == scalar '_' || c == scalar '?' || c == scalar '.' ||
      c == scalar '$') t && Text.startsWith (t.drop n) (Text.ofString "() \x7b") then some n
  else none

/-- A name with a number sign in front, private to a class. -/
def privateName? : Text → Option Nat
  | scalar '#' :: c :: t =>
    if c.isLatinLetter || c == scalar '_' then some (Text.spanLength CodePoint.isWord t + 2)
    else none
  | _ => none

/-! ## Strings, regular expressions and templates -/

/-- The length of a string's text up to and including the closing quote. -/
def quotedLength? (mark : Char) : Text → Option Nat
  | [] => none
  | scalar '\\' :: _ :: t => (quotedLength? mark t).map (· + 2)
  | scalar '\\' :: [] => none
  | c :: t => if c = scalar mark then some 1 else (quotedLength? mark t).map (· + 1)

/-- A string between double or single quotes; it may extend over several lines. -/
def string? : Text → Option Nat
  | scalar '"' :: t => (quotedLength? '"' t).map (· + 1)
  | scalar '\'' :: t => (quotedLength? '\'' t).map (· + 1)
  | _ => none

/-- The length of a pattern up to and including the slash that closes it; a slash between square
brackets does not. -/
def patternLength? (inClass : Bool) : Text → Option Nat
  | [] => none
  | scalar '\\' :: _ :: t => (patternLength? inClass t).map (· + 2)
  | scalar '\\' :: [] => none
  | scalar '\n' :: _ => none
  | scalar '/' :: t => if inClass then (patternLength? true t).map (· + 1) else some 1
  | scalar '[' :: t => (patternLength? true t).map (· + 1)
  | scalar ']' :: t => (patternLength? false t).map (· + 1)
  | _ :: t => (patternLength? inClass t).map (· + 1)

/-- A letter that sets a flag of a regular expression. -/
def isFlag (c : CodePoint) : Bool :=
  [scalar 'g', scalar 'i', scalar 'm', scalar 'u', scalar 'y', scalar 's', scalar 'd'].contains c

/-- The length of the flags, which no further word character may follow. -/
def flagsLength? (t : Text) : Option Nat :=
  let n := Text.spanLength isFlag t
  if headIs CodePoint.isWord (t.drop n) then none else some n

/-- A regular expression; its pattern is not empty. -/
def regularExpression? : Text → Option Nat
  | scalar '/' :: scalar '/' :: _ => none
  | scalar '/' :: t =>
    match patternLength? false t with
    | none => none
    | some n => (flagsLength? (t.drop n)).map (· + (n + 1))
  | _ => none

/-- A code point that stands for itself between backticks. -/
def isPlainInTemplate (c : CodePoint) : Bool :=
  c != scalar '`' && c != scalar '\\' && c != scalar '$'

end Script.Lexeme

end Dialects

import Dialects.Text.CodePoint

/-!
# Strings and numbers in JSON

How strings and numbers are written: how long the one at the start of a text is, what a string
denotes, and how a string is spelled. An escape of a high surrogate followed by one of a low
surrogate denotes a single code point; any other surrogate stays alone.
-/

namespace Dialects.Json

open CodePoint (scalar)

/-! ## Extent -/

/-- The length of a string's text up to and including the closing quote. A line feed outside an
escape is admitted only if `multiline` holds. -/
def closingLength? (multiline : Bool) : Text → Option Nat
  | [] => none
  | scalar '\\' :: _ :: t => (closingLength? multiline t).map (· + 2)
  | scalar '\\' :: [] => none
  | c :: t =>
    if c = scalar '"' then some 1
    else if c = Text.newline && !multiline then none
    else (closingLength? multiline t).map (· + 1)

/-- The length of a run of digits. -/
def digitsLength (t : Text) : Nat := Text.spanLength CodePoint.isDigit t

/-- The length of the integer at the start of a text: a zero, or digits that start with none. -/
def integerLength : Text → Nat
  | [] => 0
  | c :: t =>
    if c = scalar '0' then 1 else if c.isBetween '1' '9' then digitsLength t + 1 else 0

/-- The length of the fraction at the start of a text, zero if there is none. -/
def fractionLength : Text → Nat
  | [] => 0
  | c :: t =>
    if c = scalar '.' && digitsLength t ≠ 0 then digitsLength t + 1 else 0

/-- The length of a sign. -/
def signLength : Text → Nat
  | [] => 0
  | c :: _ => if c = scalar '+' || c = scalar '-' then 1 else 0

/-- The length of the exponent at the start of a text, zero if there is none. -/
def exponentLength : Text → Nat
  | [] => 0
  | c :: t =>
    let n := digitsLength (t.drop (signLength t))
    if (c = scalar 'e' || c = scalar 'E') && n ≠ 0 then signLength t + n + 1 else 0

/-- The length of the number without a sign at the start of a text, zero if there is none. -/
def unsignedLength (t : Text) : Nat :=
  match integerLength t with
  | 0 => 0
  | n + 1 =>
    let fraction := fractionLength (t.drop (n + 1))
    n + 1 + fraction + exponentLength (t.drop (n + 1 + fraction))

/-- The length of the number at the start of a text, zero if there is none. -/
def numberLength (t : Text) : Nat :=
  match t with
  | scalar '-' :: rest =>
    match unsignedLength rest with
    | 0 => 0
    | n + 1 => n + 2
  | _ => unsignedLength t

/-! ## What a string denotes -/

/-- What is wrong with a string. -/
inductive StringDefect where
  /-- The text ends before the closing quote. -/
  | unterminated
  /-- A control character stands in the string. -/
  | controlCharacter
  /-- No escape is written with this letter. -/
  | badEscape
  /-- An escape by number lacks its four hexadecimal digits. -/
  | badNumber
  deriving DecidableEq, Repr

/-- The wording of a defect. -/
def StringDefect.message : StringDefect → String
  | .unterminated => "Unterminated string starting at"
  | .controlCharacter => "Invalid control character at"
  | .badEscape => "Invalid \\escape"
  | .badNumber => "Invalid \\uXXXX escape"

/-- A defect, and how many code points of the string remain from its place on. -/
structure StringFault where
  /-- What is wrong. -/
  defect : StringDefect
  /-- How much of the string remains. -/
  remaining : Nat
  deriving DecidableEq, Repr

/-- The letters of short escapes and what they denote. -/
def shortEscapes : List (Char × Char) :=
  [('"', '"'), ('\\', '\\'), ('/', '/'), ('b', '\x08'), ('f', '\x0c'), ('n', '\n'), ('r', '\r'),
    ('t', '\t')]

/-- The code point that a short escape denotes. -/
def shortEscape? : CodePoint → Option CodePoint
  | scalar c => (shortEscapes.lookup c).map scalar
  | .surrogate _ => none

/-- The number that the four hexadecimal digits at the start of a text spell, and the text behind
them, which must not be empty. -/
def fourDigits? (t : Text) : Option (Nat × Text) :=
  match t with
  | a :: b :: c :: d :: e :: rest =>
    match a.hexValue?, b.hexValue?, c.hexValue?, d.hexValue? with
    | some w, some x, some y, some z => some (((w * 16 + x) * 16 + y) * 16 + z, e :: rest)
    | _, _, _, _ => none
  | _ => none

/-- The code point of a number below `0x110000`. -/
def ofNumber (n : Nat) : CodePoint := (CodePoint.ofNat? n).getD default

/-- A high and a low surrogate together. -/
def joinSurrogates (hi lo : Nat) : CodePoint :=
  ofNumber (0x10000 + (hi - 0xD800) * 0x400 + (lo - 0xDC00))

/-- Whether a number is that of a high surrogate. -/
def isHigh (n : Nat) : Bool := 0xD800 ≤ n && n < 0xDC00

/-- Whether a number is that of a low surrogate. -/
def isLow (n : Nat) : Bool := 0xDC00 ≤ n && n < 0xE000

/-- What an escape by number denotes, given its number and the text behind it, together with the
text that is left. The number of a high surrogate looks for its partner if enough text is left. -/
def pairWith? (n : Nat) (rest : Text) : Except StringFault (CodePoint × Text) :=
  match rest with
  | b :: u :: tail =>
    -- Four digits of the partner and at least one code point behind them.
    if isHigh n && b == scalar '\\' && u == scalar 'u' && 5 ≤ tail.length then
      match fourDigits? tail with
      | none => .error ⟨.badNumber, tail.length + 1⟩
      | some (m, tail') =>
        if isLow m then .ok (joinSurrogates n m, tail') else .ok (ofNumber n, rest)
    else .ok (ofNumber n, rest)
  | _ => .ok (ofNumber n, rest)

/-- What an escape denotes, read from behind the backslash, together with the text that is left;
`whole` is the length of the string. -/
def escape (whole : Nat) (t : Text) : Except StringFault (CodePoint × Text) :=
  match t with
  | [] => .error ⟨.unterminated, whole⟩
  | c :: rest =>
    if c = scalar 'u' then
      match fourDigits? rest with
      | none => .error ⟨.badNumber, t.length⟩
      | some (n, rest') => pairWith? n rest'
    else match shortEscape? c with
      | some x => .ok (x, rest)
      | none => .error ⟨.badEscape, t.length + 1⟩

/-- Four digits are taken off the text. -/
theorem length_fourDigits? {n : Nat} {t rest : Text} (h : fourDigits? t = some (n, rest)) :
    rest.length + 4 = t.length := by
  unfold fourDigits? at h
  split at h
  · split at h
    · cases h; simp
    · cases h
  · cases h

/-- Looking for the partner of a surrogate never gives text back. -/
theorem length_pairWith? {n : Nat} {t rest : Text} {c : CodePoint}
    (h : pairWith? n t = .ok (c, rest)) : rest.length ≤ t.length := by
  have self {x : CodePoint} (e : Except.ok (x, t) = (Except.ok (c, rest) : Except StringFault _)) :
      rest.length ≤ t.length := by
    simp only [Except.ok.injEq, Prod.mk.injEq] at e
    simp [e.2]
  unfold pairWith? at h
  split at h
  · split at h
    · split at h
      · cases h
      · next hd =>
        have := length_fourDigits? hd
        split at h
        · simp only [Except.ok.injEq, Prod.mk.injEq] at h
          simp only [List.length_cons]
          rw [← h.2]
          omega
        · exact self h
    · exact self h
  · exact self h

/-- An escape takes at least one code point, so that reading a string comes to an end. -/
theorem length_escape {whole : Nat} {t rest : Text} {c : CodePoint}
    (h : escape whole t = .ok (c, rest)) : rest.length < t.length := by
  unfold escape at h
  split at h
  · cases h
  · split at h
    · split at h
      · cases h
      · next hd =>
        have := length_fourDigits? hd
        have := length_pairWith? h
        simp only [List.length_cons]
        omega
    · split at h
      · simp only [Except.ok.injEq, Prod.mk.injEq] at h
        simp [h.2]
      · cases h

/-- What a string denotes, read from behind the opening quote to the closing one; `whole` is the
length of the string. -/
def stringBody (whole : Nat) (t : Text) : Except StringFault Text :=
  match t with
  | [] => .error ⟨.unterminated, whole⟩
  | c :: rest =>
    if c = scalar '"' then .ok []
    else if c = scalar '\\' then
      match h : escape whole rest with
      | .error f => .error f
      | .ok (x, rest') =>
        have := length_escape h
        (stringBody whole rest').map (x :: ·)
    else if c.val < 0x20 then .error ⟨.controlCharacter, t.length⟩
    else (stringBody whole rest).map (c :: ·)
termination_by t.length

/-- What a string denotes that is given with its quotes. -/
def decodeString (spelling : Text) : Except StringFault Text :=
  stringBody spelling.length (spelling.drop 1)

/-! ## How a string is spelled -/

/-- The digit of a number below sixteen. -/
def hexDigit (n : Nat) : CodePoint := scalar (Nat.digitChar n)

/-- How a code point is spelled in a string: quotes, backslashes and control characters are
escaped. -/
def stringUnit (c : CodePoint) : Text :=
  if c = scalar '"' then [scalar '\\', scalar '"']
  else if c = scalar '\\' then [scalar '\\', scalar '\\']
  else if c = scalar '\n' then [scalar '\\', scalar 'n']
  else if c = scalar '\r' then [scalar '\\', scalar 'r']
  else if c = scalar '\t' then [scalar '\\', scalar 't']
  else if c = scalar '\x0c' then [scalar '\\', scalar 'f']
  else if c = scalar '\x08' then [scalar '\\', scalar 'b']
  else if c.val < 0x20 then
    [scalar '\\', scalar 'u', scalar '0', scalar '0', hexDigit (c.val / 16), hexDigit (c.val % 16)]
  else [c]

/-- A string with its quotes. -/
def encodeString (content : Text) : Text :=
  scalar '"' :: content.flatMap stringUnit ++ [scalar '"']

end Dialects.Json

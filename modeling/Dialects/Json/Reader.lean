import Dialects.Json.Token

/-!
# Documents from tokens

A document is read token by token. What has been read so far is a state: what may come next, and a
stack of the arrays and objects that are still open. Both dialects use the same states. They differ
in their step: the canonical one asks for a comma between any two items and for quotes around every
key, the lenient one for neither.
-/

namespace Dialects.Json

/-- An array or object that is open around the value being read. -/
inductive Frame where
  /-- An array: the bracket that opened it and the items before, last one first. -/
  | array (opener : Token) (before : List Value)
  /-- An object: the brace that opened it, the members before, last one first, and the key whose
  value is being read. -/
  | member (opener : Token) (before : List (Text × Value)) (key : Text)

/-- How a place in an array or object came about. -/
inductive Place where
  /-- The array or object has just been opened. -/
  | opened
  /-- An item or member has just ended. -/
  | ended
  /-- A comma has just been read. -/
  | comma
  deriving DecidableEq, Repr

/-- What may come next. -/
inductive State where
  /-- A value. -/
  | value (outer : List Frame)
  /-- An item of an array, or its end. -/
  | item (place : Place) (opener : Token) (before : List Value) (outer : List Frame)
  /-- A member of an object, or its end. -/
  | key (place : Place) (opener : Token) (before : List (Text × Value)) (outer : List Frame)
  /-- The colon after a key. -/
  | colon (opener : Token) (before : List (Text × Value)) (key : Text) (outer : List Frame)
  /-- Nothing: the document has been read. -/
  | done (v : Value)

namespace State

/-- The state after a value inside the given arrays and objects, innermost first. -/
def deliver (v : Value) : List Frame → State
  | [] => .done v
  | .array opener before :: outer => .item .ended opener (v :: before) outer
  | .member opener before k :: outer => .key .ended opener ((k, v) :: before) outer

/-- The state after a token with which a value starts, if one does: an opening bracket or brace, a
number, or a word for a value. Strings are left to the dialect. -/
def start? (t : Token) (outer : List Frame) : Option State :=
  if t.isMark '{' then some (.key .opened t [] outer)
  else if t.isMark '[' then some (.item .opened t [] outer)
  else if t.kind = .number then some (deliver (.number t.text) outer)
  else if t.kind = .word then (reserved? t.text).map fun v => deliver v outer
  else none

/-- Reads a list of tokens. -/
def run (step : State → Token → Except Fault State) (s : State) (ts : List Token) :
    Except Fault State :=
  ts.foldlM step s

end State

/-- The offset in the document of a fault in a string token. -/
def Token.faultOffset (t : Token) (f : StringFault) : Nat :=
  t.offset + (t.text.length - f.remaining)

/-! ## The canonical dialect -/

namespace Canonical

/-- The content of a string token. -/
def string (t : Token) : Except Fault Text :=
  match decodeString t.text with
  | .ok s => .ok s
  | .error f => .error (.atOffset f.defect.message (t.faultOffset f))

/-- Reads the first token of a value. -/
def startValue (t : Token) (outer : List Frame) : Except Fault State :=
  match State.start? t outer with
  | some s => .ok s
  | none =>
    if t.kind = .string then (string t).map fun s => .deliver (.string s) outer
    -- Words for no value are refused by name, without a place.
    else if t.kind = .word then .error ⟨"Unexpected " ++ t.text.quoted, none⟩
    else .error (.atOffset "Expecting value" t.offset)

/-- Reads one token. -/
def step (s : State) (t : Token) : Except Fault State :=
  match s with
  | .value outer => startValue t outer
  | .item .opened o before outer =>
    if t.isMark ']' then .ok (.deliver (.array before.reverse) outer)
    else startValue t (.array o before :: outer)
  | .item .comma o before outer => startValue t (.array o before :: outer)
  | .item .ended o before outer =>
    if t.isMark ']' then .ok (.deliver (.array before.reverse) outer)
    else if t.isMark ',' then .ok (.item .comma o before outer)
    else .error (.atOffset "Expecting ',' delimiter" t.offset)
  | .key .ended o before outer =>
    if t.isMark '}' then .ok (.deliver (.object before.reverse) outer)
    else if t.isMark ',' then .ok (.key .comma o before outer)
    else .error (.atOffset "Expecting ',' delimiter" t.offset)
  | .key place o before outer =>
    if t.isMark '}' && place = .opened then .ok (.deliver (.object before.reverse) outer)
    else if t.kind = .string then (string t).map fun k => .colon o before k outer
    else .error (.atOffset "Expecting property name enclosed in double quotes" t.offset)
  | .colon o before k outer =>
    if t.isMark ':' then .ok (.value (.member o before k :: outer))
    else .error (.atOffset "Expecting ':' delimiter" t.offset)
  | .done _ => .error (.atOffset "Extra data" t.offset)

/-- The document, if all of it has been read; `length` is the length of the text. -/
def finish (length : Nat) : State → Except Fault Value
  | .done v => .ok v
  | .value _ | .item .opened .. | .item .comma .. => .error (.atOffset "Expecting value" length)
  | .item .ended .. | .key .ended .. => .error (.atOffset "Expecting ',' delimiter" length)
  | .key .opened .. | .key .comma .. =>
    .error (.atOffset "Expecting property name enclosed in double quotes" length)
  | .colon .. => .error (.atOffset "Expecting ':' delimiter" length)

/-- The document that a list of tokens spells. -/
def read (length : Nat) (ts : List Token) : Except Fault Value := do
  finish length (← State.run step (.value []) ts)

/-- The mark of byte order, which no document may start with. -/
def byteOrderMark : CodePoint := .scalar '\ufeff'

/-- The document that a text in the canonical dialect spells. Arrays and objects may be nested to
any depth: there is no limit to recursion, at which a reader that calls itself for each of them ends
with an error. -/
def parse (text : Text) : Except Fault Value :=
  if text.head? = some byteOrderMark then
    .error (.atOffset "Unexpected UTF-8 BOM (decode using utf-8-sig)" 0)
  else read text.length (lex text)

end Canonical

/-! ## The lenient dialect -/

namespace Lenient

/-- The content of a string token. -/
def string (t : Token) : Except Fault Text :=
  match decodeString t.text with
  | .ok s => .ok s
  | .error f => .error (.atOffset ("Invalid string: " ++ f.defect.message) (t.faultOffset f))

/-- Reads the first token of a value. -/
def startValue (t : Token) (outer : List Frame) : Except Fault State :=
  match State.start? t outer with
  | some s => .ok s
  | none =>
    if t.kind = .string then (string t).map fun s => .deliver (.string s) outer
    else .error (.atOffset ("Unexpected " ++ t.text.quoted) t.offset)

/-- The key that a token is. -/
def keyOf (t : Token) : Except Fault Text :=
  if t.kind = .string then string t
  else if t.kind = .word then .ok t.text
  else .error (.atOffset ("Expected a key, got " ++ t.text.quoted) t.offset)

/-- Reads one token. -/
def step (s : State) (t : Token) : Except Fault State :=
  match s with
  | .value outer => startValue t outer
  | .item place o before outer =>
    if t.isMark ',' && place = .ended then .ok (.item .comma o before outer)
    else if t.isMark ']' then .ok (.deliver (.array before.reverse) outer)
    else startValue t (.array o before :: outer)
  | .key place o before outer =>
    if t.isMark ',' && place = .ended then .ok (.key .comma o before outer)
    else if t.isMark '}' then .ok (.deliver (.object before.reverse) outer)
    else (keyOf t).map fun k => .colon o before k outer
  | .colon o before k outer =>
    if t.isMark ':' then .ok (.value (.member o before k :: outer))
    else .error (.atOffset ("Expected ':' after key " ++ k.quoted) t.offset)
  | .done _ =>
    .error (.atOffset ("Unexpected " ++ t.text.quoted ++ " after the top-level value") t.offset)

/-- The document, if all of it has been read; `length` is the length of the text. -/
def finish (length : Nat) : State → Except Fault Value
  | .done v => .ok v
  | .value _ | .colon .. => .error (.atOffset "Unexpected end of input" length)
  | .item _ o .. | .key _ o .. => .error (.atOffset ("Unclosed " ++ o.text.quoted) o.offset)

/-- The document that a list of tokens spells. -/
def read (length : Nat) (ts : List Token) : Except Fault Value := do
  finish length (← State.run step (.value []) ts)

/-- The document that a text in the lenient dialect spells. Arrays and objects may be nested to any
depth: there is no limit to recursion, at which a reader that calls itself for each of them ends
with an error. -/
def parse (text : Text) : Except Fault Value := do
  read text.length (← lex text)

end Lenient

end Dialects.Json

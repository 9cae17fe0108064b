import Dialects.Script.Fault
import Dialects.Script.Lexeme

/-!
# Tokens from text

A script is cut into tokens from left to right. At each place the first rule that finds a lexeme
decides; what a slash means depends on the token before it, and what a backtick or a closing brace
means on the template literals that are open. Every token covers at least one code point, so that
cutting ends with the text.
-/

namespace Dialects.Script

open CodePoint (scalar)

/-- What the text at a place is part of. -/
inductive Mode where
  /-- Code, in which a slash may start a regular expression or not. -/
  | code (slashStartsPattern : Bool)
  /-- The text of a template literal. -/
  | template
  deriving DecidableEq, Repr

/-- The state between two tokens. -/
structure LexState where
  /-- What the text is part of. -/
  mode : Mode
  /-- How many interpolations of template literals are open. -/
  interpolations : Nat
  /-- The code point before the place; none at the start of the script. -/
  previous : Option CodePoint
  deriving DecidableEq, Repr

namespace LexState

/-- The state at the start of a script. -/
def initial : LexState := ⟨.code false, 0, none⟩

/-- Whether a line starts at the place. -/
def atLineStart (s : LexState) : Bool :=
  match s.previous with
  | none => true
  | some c => c == Text.newline

/-- Whether the place follows a word character. -/
def afterWord (s : LexState) : Bool := s.previous.any CodePoint.isWord

end LexState

/-- The spellings of some words. -/
def spellings (ws : List String) : List Text := ws.map Text.ofString

/-- The operators that are spelled as words. -/
def operatorWords : List Text :=
  spellings ["typeof", "instanceof", "in", "void", "delete", "new"]

/-- Words that are reserved in some places only. -/
def contextualWords : List Text := spellings ["constructor", "from", "as"]

/-- Reserved words after which an expression may start. -/
def statementWords : List Text :=
  spellings ["for", "in", "while", "do", "break", "return", "continue", "switch", "case",
    "default", "if", "else", "throw", "try", "catch", "finally", "yield", "await", "async", "this",
    "of", "static", "export", "import", "debugger", "extends", "super"]

/-- Reserved words that start a declaration. -/
def declarationWords : List Text :=
  spellings ["var", "let", "const", "with", "function", "class"]

/-- Reserved words after which no expression starts. -/
def typeWords : List Text :=
  spellings ["abstract", "boolean", "byte", "char", "double", "enum", "final", "float", "goto",
    "implements", "int", "interface", "long", "native", "package", "private", "protected",
    "public", "short", "synchronized", "throws", "transient", "volatile"]

/-- Reserved words that stand for values. -/
def constantWords : List Text :=
  spellings ["true", "false", "null", "NaN", "Infinity", "undefined"]

/-- Names that are predefined; they end where the word ends, even before a dollar sign. -/
def predefinedNames : List Text :=
  spellings ["Array", "Boolean", "Date", "BigInt", "Function", "Math", "ArrayBuffer", "Number",
    "Object", "RegExp", "String", "Promise", "Proxy", "decodeURI", "decodeURIComponent",
    "encodeURI", "encodeURIComponent", "eval", "isFinite", "isNaN", "parseFloat", "parseInt",
    "DataView", "document", "window", "globalThis", "global", "arguments", "Symbol", "Intl",
    "WeakSet", "WeakMap", "Set", "Map", "Reflect", "JSON", "Atomics", "Int8Array", "Int16Array",
    "Int32Array", "BigInt64Array", "Float32Array", "Float64Array", "Uint8ClampedArray",
    "Uint8Array", "Uint16Array", "Uint32Array", "BigUint64Array", "EvalError", "InternalError",
    "RangeError", "ReferenceError", "SyntaxError", "TypeError", "URIError", "Error"]

/-- A rule of the lexer for code. -/
structure Rule where
  /-- The sort of token that the rule finds. -/
  kind : Kind
  /-- The length of the lexeme at the start of a text. -/
  length? : Text → Option Nat
  /-- Whether a slash after the lexeme may start a regular expression. -/
  expectsOperand : Bool := false
  /-- Whether the lexeme must not follow a word character. -/
  atWordStart : Bool := false

/-- The rules for code, in the order in which they are tried. -/
def rules : List Rule :=
  [{ kind := .other, length? := Lexeme.blank? },
   { kind := .comment, length? := Lexeme.comment? },
   { kind := .other, length? := Lexeme.number? },
   { kind := .punctuation, length? := Lexeme.longMark? },
   { kind := .operator, length? := Lexeme.operator?, expectsOperand := true },
   { kind := .punctuation, length? := Lexeme.oneOf? ['{', '(', '[', ';', ','],
     expectsOperand := true },
   { kind := .punctuation, length? := Lexeme.oneOf? ['}', ')', ']', '.'] },
   { kind := .operator, length? := Lexeme.word? operatorWords, expectsOperand := true },
   { kind := .keyword, length? := Lexeme.word? contextualWords, atWordStart := true },
   { kind := .keyword, length? := Lexeme.word? statementWords, expectsOperand := true },
   { kind := .keyword, length? := Lexeme.word? declarationWords, expectsOperand := true },
   { kind := .keyword, length? := Lexeme.word? typeWords },
   { kind := .keyword, length? := Lexeme.word? constantWords },
   { kind := .other, length? := Lexeme.word? predefinedNames },
   { kind := .other, length? := Lexeme.methodPath?, expectsOperand := true },
   { kind := .other, length? := Lexeme.name? },
   { kind := .other, length? := Lexeme.string? },
   { kind := .other, length? := Lexeme.privateName? }]

/-- The first token of a text: its sort, its length, and the state after it, in which the code
point before the place is still to be set. -/
structure Step where
  /-- The sort of the token. -/
  kind : Kind
  /-- How many code points the token covers, at least one. -/
  length : Nat
  /-- What the text after the token is part of. -/
  mode : Mode
  /-- How many interpolations are open after the token. -/
  interpolations : Nat
  deriving DecidableEq, Repr

namespace Step

/-- The first token in the text of a template literal. -/
def inTemplate? (s : LexState) (t : Text) : Option Step :=
  match t with
  | scalar '`' :: _ => some ⟨.template, 1, .code false, s.interpolations⟩
  | scalar '\\' :: _ :: _ => some ⟨.template, 2, .template, s.interpolations⟩
  | scalar '$' :: scalar '{' :: _ => some ⟨.other, 2, .code false, s.interpolations + 1⟩
  | scalar '$' :: _ => some ⟨.template, 1, .template, s.interpolations⟩
  | _ =>
    (Lexeme.positive? (Text.spanLength Lexeme.isPlainInTemplate t)).map
      fun n => ⟨.template, n, .template, s.interpolations⟩

/-- The first token where a slash starts no regular expression. -/
def afterOperand? (s : LexState) (t : Text) : Option Step :=
  if Lexeme.headIs (· == scalar '}') t && s.interpolations ≠ 0 then
    some ⟨.other, 1, .template, s.interpolations - 1⟩
  else if Lexeme.headIs (· == scalar '`') t then
    some ⟨.template, 1, .template, s.interpolations⟩
  else
    rules.findSome? fun r =>
      if r.atWordStart && s.afterWord then none
      else (r.length? t).map fun n => ⟨r.kind, n, .code r.expectsOperand, s.interpolations⟩

/-- The first token where a slash may start a regular expression. Blank space and comments leave
that so; a slash that starts neither a comment nor a regular expression starts no token. -/
def beforeOperand? (s : LexState) (t : Text) : Option Step :=
  match Lexeme.blank? t with
  | some n => some ⟨.other, n, .code true, s.interpolations⟩
  | none =>
    match Lexeme.comment? t with
    | some n => some ⟨.comment, n, .code true, s.interpolations⟩
    | none =>
      -- A division cannot stand here, so that a slash is a regular expression or nothing.
      if Lexeme.headIs (· == scalar '/') t then
        (Lexeme.regularExpression? t).map fun n => ⟨.other, n, .code false, s.interpolations⟩
      else afterOperand? s t

/-- Whether blank space, a slash or a page comment comes first; at the start of a line a slash
after these may start a regular expression. -/
def opensLine (t : Text) : Bool :=
  Lexeme.headIs (fun c => c.isBlank || c == scalar '/') t ||
    Text.startsWith t (Text.ofString "<!--")

/-- The first token of a text, if one starts there. -/
def first? (s : LexState) (t : Text) : Option Step :=
  match s.mode with
  | .template => inTemplate? s t
  | .code true => beforeOperand? s t
  | .code false =>
    match if s.previous.isNone then Lexeme.shebang? t else none with
    | some n => some ⟨.comment, n, .code false, s.interpolations⟩
    | none => if s.atLineStart && opensLine t then beforeOperand? s t else afterOperand? s t

end Step

/-- Cuts a text into tokens. -/
def lexFrom (s : LexState) (offset : Nat) (text : Text) : Except Fault (List Token) :=
  match text with
  | [] => .ok []
  | c :: rest =>
    match Step.first? s (c :: rest) with
    | none => .error (.unexpectedCharacter offset c)
    | some step =>
      let more := step.length - 1
      let value := c :: rest.take more
      let s' : LexState := ⟨step.mode, step.interpolations, value.getLast?⟩
      (lexFrom s' (offset + value.length) (rest.drop more)).map
        (Token.mk offset step.kind value :: ·)
termination_by text.length
decreasing_by simp only [List.length_cons, List.length_drop]; omega

/-- The tokens of a script. -/
def lex (script : Text) : Except Fault (List Token) := lexFrom .initial 0 script

end Dialects.Script

import Dialects.Text.Quoted
import Dialects.Text.Position
import Dialects.Text.Utf8

/-!
# Failures

What can go wrong while a document is converted, read, saved or configured. A failure is a cause;
`Failure.message` gives its wording.
-/

namespace Dialects

/-- Why the value of an option cannot be substituted. -/
inductive SubstitutionFault where
  /-- A percent sign is followed by neither a second one nor an opening parenthesis. -/
  | strayPercent (rest : Text)
  /-- A reference to an option is not closed. -/
  | badReference (rest : Text)
  /-- A reference names no option. -/
  | missingOption (option sectionName reference : Text) (raw : Text)
  /-- References are nested more than ten deep. -/
  | tooDeep (option sectionName : Text) (raw : Text)
  deriving DecidableEq, Repr

/-- The cause of a failure. -/
inductive Failure where
  /-- A text is not in the dialect expected of it; the place is given where it is known. -/
  | malformed (reason : String) (line column : Option Nat)
  /-- A save was refused since the text could not be converted; nothing was written. -/
  | unsaved (path : String) (cause : Failure)
  /-- A save was refused for a reason given in words. -/
  | refusedSave (reason : String)
  /-- No converters are registered for a language. -/
  | unknownLanguage (language : String)
  /-- Some other failure of the conversion pipeline. -/
  | pipeline (reason : String)
  /-- A key is missing from a table. -/
  | missingKey (key : String)
  /-- A value is not acceptable. -/
  | badValue (reason : String)
  /-- An index lies outside a list. -/
  | badIndex (reason : String)
  /-- A callback or another part outside the pipeline failed. -/
  | interrupted (reason : String)
  /-- The storage refused an operation. -/
  | storage (reason : String)
  /-- There is no file at a path. -/
  | missingFile (path : String)
  /-- The bytes of a file are not UTF-8. -/
  | undecodable (fault : Utf8.DecodeFault)
  /-- A text holds surrogates, which a file cannot. -/
  | unencodable (fault : Utf8.EncodeFault)
  /-- The value of an option cannot be substituted. -/
  | substitution (fault : SubstitutionFault)
  /-- Callbacks are nested too deep. -/
  | nestedTooDeep
  deriving DecidableEq, Repr

namespace Utf8

/-- A byte in hexadecimal. -/
def showByte (b : UInt8) : String := String.ofList (['0', 'x'] ++ Text.hexadecimal 2 b.toNat)

/-- The wording of a defect. -/
def Defect.message : Defect → String
  | .invalidStart => "invalid start byte"
  | .invalidContinuation => "invalid continuation byte"
  | .unexpectedEnd => "unexpected end of data"

/-- The wording of a decoding fault. -/
def DecodeFault.message (f : DecodeFault) : String :=
  let place := match f.bytes with
    | [b] => s!"byte {showByte b} in position {f.start}"
    | bs => s!"bytes in position {f.start}-{f.start + bs.length - 1}"
  "'utf-8' codec can't decode " ++ place ++ ": " ++ f.defect.message

/-- The wording of an encoding fault. -/
def EncodeFault.message (f : EncodeFault) : String :=
  let place :=
    if f.length = 1 then
      let name := String.ofList (Text.numberedEscape f.first)
      "character '" ++ name ++ s!"' in position {f.start}"
    else s!"characters in position {f.start}-{f.start + f.length - 1}"
  "'utf-8' codec can't encode " ++ place ++ ": surrogates not allowed"

end Utf8

/-- The wording of a substitution fault. -/
def SubstitutionFault.message : SubstitutionFault → String
  | .strayPercent rest =>
    "'%' must be followed by '%' or '(', found: " ++ rest.quoted
  | .badReference rest => "bad interpolation variable reference " ++ rest.quoted
  | .missingOption option sectionName reference raw =>
    "Bad value substitution: option " ++ option.quoted ++ " in section " ++ sectionName.quoted ++
      " contains an interpolation key " ++ reference.quoted ++
      " which is not a valid option name. Raw value: " ++ raw.quoted
  | .tooDeep option sectionName raw =>
    "Recursion limit exceeded in value substitution: option " ++ option.quoted ++
      " in section " ++ sectionName.quoted ++
      " contains an interpolation key which cannot be substituted in 10 steps. Raw value: " ++
      raw.quoted

namespace Failure

/-- A malformed text, at an offset of it. -/
def malformedAt (reason : String) (text : Text) (offset : Nat) : Failure :=
  let p := Text.position text offset
  .malformed reason (some p.line) (some p.column)

/-- The wording of a failure. -/
def message : Failure → String
  | .malformed reason none _ => reason
  | .malformed reason (some line) none => reason ++ s!" (line {line})"
  | .malformed reason (some line) (some column) => reason ++ s!" (line {line}, column {column})"
  | .unsaved path cause => "Could not save " ++ path ++ ": " ++ cause.message
  | .refusedSave reason | .pipeline reason | .badValue reason | .badIndex reason
  | .interrupted reason | .storage reason => reason
  | .unknownLanguage language => "No converters registered for language " ++ quote language
  | .missingKey key => quote key
  | .missingFile path => path
  | .undecodable fault => fault.message
  | .unencodable fault => fault.message
  | .substitution fault => fault.message
  | .nestedTooDeep => "callbacks are nested too deep"

/-- Whether the failure is one of the conversion pipeline. -/
def isPipeline : Failure → Bool
  | .malformed .. | .unsaved .. | .refusedSave _ | .unknownLanguage _ | .pipeline _ => true
  | _ => false

/-- Whether the failure is that something looked up is not there. -/
def isLookup : Failure → Bool
  | .unknownLanguage _ | .missingKey _ => true
  | _ => false

/-- Whether the failure comes from the storage. -/
def isStorage : Failure → Bool
  | .storage _ | .missingFile _ => true
  | _ => false

/-- The line at fault in a malformed text, where it is known. -/
def line? : Failure → Option Nat
  | .malformed _ line _ => line
  | _ => none

/-- The column at fault in a malformed text, where it is known. -/
def column? : Failure → Option Nat
  | .malformed _ _ column => column
  | _ => none

/-- The failure that led to a refused save. -/
def cause? : Failure → Option Failure
  | .unsaved _ cause => some cause
  | _ => none

end Failure

end Dialects

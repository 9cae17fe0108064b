import Dialects.Ini.Basic

/-!
# Substitution in INI files

The value of an option may refer to other options of its section: `%(name)s` stands for the value
of the option `name`, and two percent signs stand for one. References are followed when a value is
asked for, to a depth of ten.
-/

namespace Dialects.Ini

/-- A piece of a value. -/
inductive Piece where
  /-- A code point that stands for itself. -/
  | plain (c : CodePoint)
  /-- A reference to an option. -/
  | reference (name : Text)
  /-- A percent sign that starts nothing known; nothing after it is read. -/
  | fault (f : SubstitutionFault)
  deriving DecidableEq, Repr

/-- The percent sign. -/
def percent : CodePoint := .scalar '%'

/-- The pieces of a value. -/
def pieces (t : Text) : List Piece :=
  match t with
  | [] => []
  | c :: rest =>
    if c ≠ percent then .plain c :: pieces rest
    else
      match rest with
      | .scalar '%' :: rest => .plain percent :: pieces rest
      | .scalar '(' :: rest =>
        let name := rest.takeWhile (· ≠ .scalar ')')
        match name, rest.drop name.length with
        | _ :: _, .scalar ')' :: .scalar 's' :: _ =>
          .reference (Text.toLower name) :: pieces (rest.drop (name.length + 2))
        | _, _ => [.fault (.badReference t)]
      | _ => [.fault (.strayPercent t)]
termination_by t.length
decreasing_by all_goals (simp only [List.length_cons, List.length_drop]; omega)

/-- A value that is asked for: where it stands and how it is written. -/
structure Request where
  /-- The name of the section. -/
  sectionName : Text
  /-- The name of the option. -/
  option : Text
  /-- The value as it is written. -/
  raw : Text
  deriving DecidableEq, Repr

/-- How deep references are followed. -/
def maxDepth : Nat := 10

/-- A value with its references followed, at most `depth` deep. -/
def expand (look : Text → Option Text) (q : Request) : (depth : Nat) → Text →
    Except SubstitutionFault Text
  | 0, _ => .error (.tooDeep q.option q.sectionName q.raw)
  | depth + 1, t => do
    let parts ← (pieces t).mapM fun
      | .plain c => .ok [c]
      | .fault f => .error f
      | .reference name =>
        match look name with
        | none => .error (.missingOption q.option q.sectionName name q.raw)
        | some v => if v.contains percent then expand look q depth v else .ok v
    return parts.flatten

/-- The value of an option of a section, if there are such. -/
def get? (f : Ini) (sectionName option : Text) : Except SubstitutionFault (Option Text) :=
  if f.hasSection sectionName then
    let option := option.toLower
    match f.raw? sectionName option with
    | none => .ok none
    | some raw => (expand (f.raw? sectionName) ⟨sectionName, option, raw⟩ maxDepth raw).map some
  else .ok none

/-- All sections, without the one of the defaults, with their options. -/
def snapshot (f : Ini) : Except SubstitutionFault (List (Text × IniOptions)) :=
  f.sections.mapM fun (name, _) => do
    let os ← (f.options name).mapM fun (option, raw) => do
      return (option, ← expand (f.raw? name) ⟨name, option, raw⟩ maxDepth raw)
    return (name, os)

end Dialects.Ini

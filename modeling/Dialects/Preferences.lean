import Dialects.Configuration
import Dialects.Editor.Controller

/-!
# Preferences of the lenient mode

The grammar scopes that make a document lenient, the indent of JSON, and whether a document is
loaded anew when its dialect changes.
-/

namespace Dialects

/-- The preferences of the lenient mode. -/
structure Preferences where
  /-- The scope of lenient scripts. -/
  scriptScope : Text
  /-- The scope of lenient JSON documents. -/
  jsonScope : Text
  /-- The indent of nested JSON values. -/
  indent : Nat
  /-- Whether an unmodified document is loaded anew when its handle is replaced. -/
  reload : Bool
  deriving DecidableEq, Repr

namespace Preferences

/-- The preferences if nothing else is wished. -/
def standard : Preferences where
  scriptScope := Text.ofString "source.js.lenient"
  jsonScope := Text.ofString "source.json.lenient"
  indent := 2
  reload := true

/-- A scope without the blanks around it; the empty one gives way to a standard. -/
def scopeOf (value : Option Text) (standard : Text) : Text :=
  match value with
  | none | some [] => standard.trim
  | some t => t.trim

/-- An indent, which is at least one; none and zero give way to the standard. -/
def indentOf (value : Option Int) : Nat :=
  match value with
  | none => standard.indent
  | some n => if n = 0 then standard.indent else max 1 n.toNat

/-- The preferences that are wished by values, each of which may be missing. -/
def ofValues (scriptScope jsonScope : Option Text) (indent : Option Int) (reload : Bool) :
    Preferences where
  scriptScope := scopeOf scriptScope standard.scriptScope
  jsonScope := scopeOf jsonScope standard.jsonScope
  indent := indentOf indent
  reload := reload

/-- The preferences of a configuration. -/
def ofConfiguration (c : Configuration) : Except Failure Preferences := do
  let name (s : String) : Text := Text.ofString s
  let scriptScope ← c.get? Configuration.lenientName (name "js_scope")
  let jsonScope ← c.get? Configuration.lenientName (name "json_scope")
  let indent ← c.getInt? Configuration.lenientName (name "json_indent")
  let reload ← c.getBool? Configuration.lenientName (name "reload_on_switch")
  return ofValues scriptScope jsonScope indent (reload.getD standard.reload)

/-- The scopes with the languages for which they stand. If both languages have the same scope, it
stands for JSON. -/
def scopeLanguages (p : Preferences) : List (Text × String) :=
  if p.scriptScope = p.jsonScope then [(p.jsonScope, "json")]
  else [(p.scriptScope, "js"), (p.jsonScope, "json")]

/-- How the controller works with these preferences. A scope that is no string is the scope of no
grammar. -/
def controllerSettings (p : Preferences) : ControllerSettings where
  scopes := p.scopeLanguages.filterMap fun (scope, language) => scope.toString?.map (·, language)
  reload := p.reload

end Preferences

end Dialects

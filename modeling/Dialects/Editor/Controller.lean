import Dialects.Editor.Document

/-!
# The dialect of a document

A document is shown in the lenient dialect while its grammar's scope stands for a language. The
controller follows the grammar of the documents that it observes. When a document turns lenient its
handle is replaced by a mapped one, and its text is loaded anew if it is unmodified and converted
otherwise; when it turns canonical both are undone. A document that cannot be turned lenient gets
its previous grammar back. Setting that grammar is itself a change that the controller follows, so
that changes are nested.
-/

namespace Dialects

/-- How the controller works. -/
structure ControllerSettings where
  /-- The scopes that stand for languages. -/
  scopes : List (String × String)
  /-- Whether an unmodified document is loaded anew when its handle is replaced. -/
  reload : Bool
  deriving DecidableEq, Repr

namespace ControllerSettings

/-- The scopes that stand for languages unless the configuration names others. -/
def standardScopes : List (String × String) :=
  [("source.js.lenient", "js"), ("source.json.lenient", "json")]

/-- The language for which a grammar's scope stands. -/
def languageOf (c : ControllerSettings) (g : Grammar) : Option String := c.scopes.lookup g.scope

end ControllerSettings

/-- What has come of a change of dialect. -/
inductive Outcome where
  /-- All went well. -/
  | success
  /-- Something failed; the document may have been given a grammar back. -/
  | failure (cause : Failure) (reverted : Option Grammar)
  deriving DecidableEq, Repr

namespace Editor

variable {σ κ : Type}

/-- Whether a document is shown in the lenient dialect. -/
def isLenient (e : Editor σ κ) (d : Nat) : Bool := (e.tracked.lookup d).isSome

/-- Counts a document as shown in the lenient dialect of a language. -/
def track (d : Nat) (language : String) : Action (Editor σ κ) Unit :=
  .change fun e => { e with tracked := e.tracked ++ [(d, language)] }

/-- No longer counts a document as shown in the lenient dialect. -/
def untrack (d : Nat) : Action (Editor σ κ) Unit :=
  .change fun e => { e with tracked := e.tracked.filter fun t => t.1 ≠ d }

/-- Gives a document its previous grammar back, if there was one; `revert` sets a grammar. -/
def abortEnable (revert : Nat → Grammar → Action (Editor σ κ) Unit) (d : Nat)
    (previous : Option Grammar) (f : Failure) : Action (Editor σ κ) Outcome := do
  match previous with
  | some g => revert d g
  | none => pure ()
  return .failure f previous

/-- Shows the text of a document that has got its new handle: a modified text is converted, unless
it is taken to be lenient already, and any other is loaded anew. If this fails, the document gets
its old handle back, and the failure is given. -/
def showText (h : Host σ κ) (c : ControllerSettings) (d : Nat) (language : String) (set : κ)
    (source : String) (old : Option (Handle (Binding κ))) (backed modified convert : Bool) :
    Action (Editor σ κ) (Option Failure) := do
  let conversion :=
    if modified && convert then
      transcode h d set .toLenient (report Notification.toLenientCategory source)
    else pure ()
  match ← conversion.attempt with
  | .error f =>
    -- The text is as it was: only the handle has to be put back.
    setHandle d old
    return some f
  | .ok () =>
    track d language
    let reload := if backed && !modified && c.reload then load h d else pure ()
    match ← reload.attempt with
    | .error f =>
      -- The document is forgotten before its grammar is given back, since that change is followed
      -- too.
      report Notification.toLenientCategory source f
      untrack d
      setHandle d old
      return some f
    | .ok () => return none

/-- Shows a document in the lenient dialect. If this fails, its text and its handle are as before,
and the failure is given. Without a previous grammar the document was opened as lenient, so that its
text is taken to be so already. -/
def turnLenient (h : Host σ κ) (c : ControllerSettings) (d : Nat) (previous : Option Grammar)
    (language : String) : Action (Editor σ κ) (Option Failure) := do
  let doc ← document d
  let source ← .ask (sourceOf h · d doc)
  match ← (lookUp h language).attempt with
  | .error f =>
    if f.isLookup then
      report Notification.toLenientCategory source f
      return some f
    else throw f
  | .ok set =>
    let backed ← .ask (isBacked h · doc)
    let modified ← isModified h d
    -- The handle comes first, so that a text that is loaded is read through the new one.
    if backed then setHandle d (doc.handle.map (.mapped · ⟨set, source⟩))
    showText h c d language set source doc.handle backed modified previous.isSome

/-- Turns a document lenient, or gives it its previous grammar back. -/
def enable (h : Host σ κ) (c : ControllerSettings)
    (revert : Nat → Grammar → Action (Editor σ κ) Unit) (d : Nat) (previous : Option Grammar)
    (language : String) : Action (Editor σ κ) Outcome := do
  if ← .ask (isLenient · d) then return .success
  match ← turnLenient h c d previous language with
  | none => return .success
  | some f => abortEnable revert d previous f

/-- Undoes what turning a document lenient did to its text. -/
def restoreText (h : Host σ κ) (c : ControllerSettings) (d : Nat) (language : String)
    (modified backed : Bool) : Action (Editor σ κ) Unit := do
  if modified then
    let set ← outside (h.converters language)
    transcode h d set .toCanonical fun _ => pure ()
  else if backed && c.reload then load h d
  else pure ()

/-- Turns a document canonical. This always succeeds as far as handle and dialect go; a failure to
restore the text is reported. -/
def disable (h : Host σ κ) (c : ControllerSettings) (d : Nat) : Action (Editor σ κ) Outcome := do
  match (← .ask Editor.tracked).lookup d with
  | none => return .success
  | some language =>
    -- Whatever fails below, the document no longer counts as lenient.
    untrack d
    let doc ← document d
    let source ← .ask (sourceOf h · d doc)
    let modified ← isModified h d
    setHandle d (doc.handle.map Handle.unmapped)
    -- A mapped handle has the path of the handle it was made from.
    let backed ← .ask (isBacked h · doc)
    match ← (restoreText h c d language modified backed).attempt with
    | .ok () => return .success
    | .error f =>
      report Notification.fromLenientCategory source f
      return .failure f none

/-- Follows a change of a document's grammar. -/
def handleGrammar (h : Host σ κ) (c : ControllerSettings)
    (revert : Nat → Grammar → Action (Editor σ κ) Unit) (d : Nat) (g : Grammar)
    (previous : Option Grammar) : Action (Editor σ κ) Outcome := do
  let language := c.languageOf g
  match (← .ask Editor.tracked).lookup d with
  | some current =>
    -- Scopes of the same language are the same dialect.
    if language = some current then return .success
    let outcome ← disable h c d
    match language with
    | none => return outcome
    | some l => enable h c revert d previous l
  | none =>
    match language with
    | none => return .success
    | some l => enable h c revert d previous l

/-- Follows a change of grammar through an observation, and takes note of the grammar that the
document has afterwards. -/
def follow (h : Host σ κ) (c : ControllerSettings)
    (revert : Nat → Grammar → Action (Editor σ κ) Unit) (observation : Nat) (g : Grammar) :
    Action (Editor σ κ) Unit := do
  match (← .ask Editor.observations)[observation]? with
  | none => pure ()
  | some o =>
    let _ ← handleGrammar h c revert o.document g o.previous
    -- The grammar may be another one by now: a failed change has put the previous one back.
    let now := (← document o.document).grammar
    .change fun e =>
      { e with
        observations := e.observations.modify observation fun o => { o with previous := some now } }

/-- Leaves a mark in the log. -/
def mark (name : String) (told : Told) : Action (Editor σ κ) Unit :=
  .change fun e => { e with log := e.log ++ [(name, told)] }

/-- Sets a document's grammar and tells the observers, unless the grammar is the same. Changes are
nested at most `depth` deep. -/
def setGrammar (h : Host σ κ) (c : ControllerSettings) : (depth : Nat) → (d : Nat) → Grammar →
    Action (Editor σ κ) Unit
  | 0, _, _ => throw .nestedTooDeep
  | depth + 1, d, g => do
    let doc ← document d
    if doc.grammar = g then pure ()
    else
      modify d fun doc => { doc with grammar := g }
      -- The observers are those at the time of the change, whatever one of them does to the list.
      doc.grammarObservers.callbacks.forM fun
        | .controller o => follow h c (setGrammar h c depth) o g
        | .listener _ name => mark name (.words [g.scope])

/-- How deep changes of grammar may be nested. -/
def maxNesting : Nat := 200

/-- Sets a document's grammar. -/
def changeGrammar (h : Host σ κ) (c : ControllerSettings) (d : Nat) (g : Grammar) :
    Action (Editor σ κ) Unit :=
  setGrammar h c maxNesting d g

/-- Observes a document: handles its present grammar and then follows it. Gives the number of the
observation. -/
def observe (h : Host σ κ) (c : ControllerSettings) (d : Nat) : Action (Editor σ κ) Nat := do
  let n := (← .ask Editor.observations).length
  .change fun e => { e with observations := e.observations ++ [⟨d, none⟩] }
  follow h c (changeGrammar h c) n (← document d).grammar
  modify d fun doc =>
    { doc with
      grammarObservers := doc.grammarObservers.subscribe (.controller n)
      endObservers := doc.endObservers.subscribe (.controller n) }
  return n

/-- Stops following a document through an observation. -/
def unobserve (n : Nat) : Action (Editor σ κ) Unit := do
  match (← .ask Editor.observations)[n]? with
  | none => pure ()
  | some o =>
    modify o.document fun doc =>
      { doc with
        grammarObservers := doc.grammarObservers.unsubscribe (.controller n)
        endObservers := doc.endObservers.unsubscribe (.controller n) }

/-- Tells the observers that a document is gone. The controller forgets it, and leaves its file as
it was saved. -/
def announceEnd (d : Nat) : Action (Editor σ κ) Unit := do
  (← document d).endObservers.callbacks.forM fun
    | .controller o => do
      unobserve o
      untrack d
    | .listener _ name => mark name (.words [])

/-- Stops following all documents. Unless the editor itself is closing, every lenient document is
turned canonical; a failure there stops nothing. -/
def deactivate (h : Host σ κ) (c : ControllerSettings) (closing : Bool) :
    Action (Editor σ κ) Unit := do
  (List.range (← .ask Editor.observations).length).forM unobserve
  if !closing then
    (← .ask Editor.tracked).forM fun t => do
      let _ ← (disable h c t.1).attempt
  .change fun e => { e with tracked := [] }

end Editor

end Dialects

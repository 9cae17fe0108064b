import Dialects.Editor.Controller
import Dialects.Proofs.Action
import Dialects.Proofs.Editor.Operations
import Dialects.Proofs.Table

/-!
# The two transitions

A document is shown in the lenient dialect by `turnLenient` and in the canonical one by `disable`.
Their cases are `turnLenient_cases` and `disable_cases`: which handle the document has afterwards,
whether it counts as lenient, and in which dialect its text is. Neither looks at the grammar or
changes who follows the document (`Document.Akin`).
-/

namespace Dialects

variable {σ κ : Type}

/-- The two have the same grammar and the same followers. -/
structure Document.Akin (doc doc' : Document κ) : Prop where
  grammar : doc'.grammar = doc.grammar
  grammarObservers : doc'.grammarObservers = doc.grammarObservers
  endObservers : doc'.endObservers = doc.endObservers
  closed : doc'.closed = doc.closed

theorem Document.Akin.refl (doc : Document κ) : doc.Akin doc := ⟨rfl, rfl, rfl, rfl⟩

/-- A change of the handle makes no difference. -/
theorem Document.Akin.of_handle {doc doc' : Document κ} {handle : Option (Handle (Binding κ))}
    (h : { doc with handle }.Akin doc') : doc.Akin doc' :=
  ⟨h.grammar, h.grammarObservers, h.endObservers, h.closed⟩

namespace Editor

variable {I : σ → Prop} {e e₁ e₂ e₃ : Editor σ κ} {d : Nat} {doc doc' : Document κ}
  {t t' : List (Nat × String)}

/-- Apart from the host's work, the second editor is the first one with `doc` as the document `d`
and with the given documents counted as lenient. -/
structure Shape (I : σ → Prop) (e : Editor σ κ) (d : Nat) (doc : Document κ)
    (t : List (Nat × String)) (e' : Editor σ κ) : Prop extends Frame I e e' where
  documents : e'.documents = e.documents.set d doc
  tracked : e'.tracked = t

namespace Shape

theorem refl (hdoc : e.Holds d doc) : Shape I e d doc e.tracked e :=
  ⟨Frame.refl I e, (congrArg Editor.documents hdoc.put_self).symm, rfl⟩

/-- A document that has taken a shape is there. -/
theorem holds (h : Shape I e d doc t e₁) (hdoc : e.Holds d doc') : e₁.Holds d doc := by
  rw [Holds, h.documents]
  exact hdoc.put doc

/-- What only the host does after a step leaves its shape as it is. -/
theorem hostOnly (h : Shape I e d doc t e₁) (h₂ : HostOnly I e₁ e₂) : Shape I e d doc t e₂ :=
  ⟨h.toFrame.trans h₂.toFrame, h₂.documents.trans h.documents, h₂.tracked.trans h.tracked⟩

/-- A document may be replaced in the course of a step. -/
theorem put (h : Shape I e d doc t e₁) (doc' : Document κ) :
    Shape I e d doc' t (e₁.put d doc') := by
  refine ⟨⟨h.observations, h.log, h.faults, h.host⟩, ?_, h.tracked⟩
  rw [Editor.put, h.documents, List.set_set]

/-- The table may be replaced in the course of a step. -/
theorem track (h : Shape I e d doc t e₁) (t' : List (Nat × String)) :
    Shape I e d doc t' { e₁ with tracked := t' } :=
  ⟨⟨h.observations, h.log, h.faults, h.host⟩, h.documents, rfl⟩

/-- One more document counts as lenient. -/
theorem count (h : Shape I e d doc t e₁) (l : String) :
    Shape I e d doc (t ++ [(d, l)]) { e₁ with tracked := e₁.tracked ++ [(d, l)] } := by
  rw [h.tracked]
  exact h.track (t ++ [(d, l)])

/-- Two steps of a document are one step of it. -/
theorem trans (h : Shape I e d doc t e₁) (h₂ : Shape I e₁ d doc' t' e₂) : Shape I e d doc' t' e₂ := by
  refine ⟨h.toFrame.trans h₂.toFrame, ?_, h₂.tracked⟩
  rw [h₂.documents, h.documents, List.set_set]

/-- What has the shape it had before differs in the host only. -/
theorem toHostOnly (h : Shape I e d doc e.tracked e₁) (hdoc : e.Holds d doc) :
    HostOnly I e e₁ :=
  ⟨h.toFrame, h.documents.trans (congrArg Editor.documents hdoc.put_self), h.tracked⟩

end Shape

/-! ## Single steps -/

/-- Asking for converters is no failure of the host. -/
theorem within_lookUp {h : Host σ κ} (hI : h.Respects I) (l : String) : Within I (lookUp h l) := by
  intro e
  exact ⟨⟨rfl, rfl, ⟨[], (List.append_nil _).symm⟩, hI.converters l e.host⟩, rfl, rfl⟩

theorem within_report (category source : String) (f : Failure) :
    Within I (report category source f : Action (Editor σ κ) Unit) :=
  Within.notify _

/-- A document that can tell whether it is modified says so. -/
theorem isModified_of_ok {h : Host σ κ} {s : σ} (hdoc : e.Holds d doc)
    (hr : h.checkModified d e.host = (.ok (), s)) :
    isModified h d e = (.ok doc.modified, { e with host := s }) := by
  have hdoc' : Holds { e with host := s } d doc := hdoc
  rw [isModified, Action.bind_of_ok (outside_of_ok hr), Action.bind_of_ok (document_apply hdoc')]
  rfl

/-- A document that cannot tell whether it is modified fails, and that stays on record. -/
theorem isModified_of_error {h : Host σ κ} {s : σ} {f : Failure}
    (hr : h.checkModified d e.host = (.error f, s)) :
    isModified h d e = (.error f, { e with host := s, faults := e.faults ++ [f] }) := by
  rw [isModified, Action.bind_apply, outside_of_error hr]

/-- Whether a document is modified can be told unless the host fails. -/
theorem isModified_cases {h : Host σ κ} (hI : h.Respects I) (hdoc : e.Holds d doc) :
    ∃ e', HostOnly I e e' ∧
      ((∃ f, isModified h d e = (.error f, e') ∧ e'.faults ≠ [] ∧
          (h.checkModified d e.host).1 = .error f) ∨
        isModified h d e = (.ok doc.modified, e')) := by
  have hconfined : Confined I (outside (h.checkModified d) : Action (Editor σ κ) Unit) :=
    Confined.outside (hI.checkModified d)
  have hwithin := hconfined.within e
  rcases hr : h.checkModified d e.host with ⟨f | ⟨⟨⟩⟩, s⟩
  · rw [outside_of_error hr] at hwithin
    exact ⟨_, hwithin, Or.inl ⟨f, isModified_of_error hr,
      List.append_ne_nil_of_right_ne_nil _ (by simp), rfl⟩⟩
  · rw [outside_of_ok hr] at hwithin
    exact ⟨_, hwithin, Or.inr (isModified_of_ok hdoc hr)⟩

/-- A document that does not count as lenient is not in the list. -/
theorem filter_tracked_of_free (hfree : e.tracked.lookup d = none) :
    e.tracked.filter (fun t => t.1 ≠ d) = e.tracked := by
  refine List.filter_eq_self.mpr fun p hp => ?_
  have hne := List.lookup_eq_none_iff.mp hfree p hp
  simp only [ne_eq, decide_not, Bool.not_eq_eq_eq_not, Bool.not_true, decide_eq_false_iff_not]
  rintro rfl
  simp at hne

/-! ## The course of a transition -/

section Course

variable {h : Host σ κ} {c : ControllerSettings} {l source : String} {set : κ} {f : Failure}
  {old : Option (Handle (Binding κ))} {previous : Option Grammar} {backed modified convert : Bool}

/-- Converts a document's text to the lenient dialect, if this is called for. -/
def convertWhen (h : Host σ κ) (d : Nat) (set : κ) (source : String) (b : Bool) :
    Action (Editor σ κ) Unit :=
  if b then transcode h d set .toLenient (report Notification.toLenientCategory source) else pure ()

/-- Loads a document's text, if this is called for. -/
def loadWhen (h : Host σ κ) (d : Nat) (b : Bool) : Action (Editor σ κ) Unit :=
  if b then load h d else pure ()

/-- What is done if the text of a document that has been turned lenient cannot be loaded. -/
def giveUp (d : Nat) (source : String) (old : Option (Handle (Binding κ))) (f : Failure) :
    Action (Editor σ κ) (Option Failure) := do
  report Notification.toLenientCategory source f
  untrack d
  setHandle d old
  return some f

/-- The text cannot be converted: it is the old one, and the old handle is put back. -/
theorem showText_of_unconverted
    (hr : convertWhen h d set source (modified && convert) e = (.error f, e₁)) :
    showText h c d l set source old backed modified convert e
      = (setHandle d old >>= fun _ => pure (some f)) e₁ := by
  rw [convertWhen] at hr
  rw [showText, Action.bind_apply, Action.attempt_apply, hr]

/-- Once the text is converted, or need not be, all is as if it were lenient already. -/
theorem showText_of_converted
    (hr : convertWhen h d set source (modified && convert) e = (.ok (), e₁)) :
    showText h c d l set source old backed modified convert e
      = showText h c d l set source old backed modified false e₁ := by
  rw [convertWhen] at hr
  rw [showText, showText, Bool.and_false]
  simp only [Bool.false_eq_true, if_false, Action.bind_apply, Action.attempt_apply,
    Action.pure_apply, hr]

/-- A document that has been loaded, or need not be, is shown. -/
theorem showText_of_loaded (hr : loadWhen h d (backed && !modified && c.reload)
    { e with tracked := e.tracked ++ [(d, l)] } = (.ok (), e₁)) :
    showText h c d l set source old backed modified false e = (.ok none, e₁) := by
  rw [loadWhen] at hr
  rw [showText, Bool.and_false]
  simp only [Bool.false_eq_true, if_false, Action.bind_apply, Action.attempt_apply,
    Action.pure_apply, track, Action.change_apply, hr]

/-- A document that cannot be loaded is taken out of the table again, and the failure is
reported. -/
theorem showText_of_unloaded (hr : loadWhen h d (backed && !modified && c.reload)
    { e with tracked := e.tracked ++ [(d, l)] } = (.error f, e₁)) :
    showText h c d l set source old backed modified false e = giveUp d source old f e₁ := by
  rw [loadWhen] at hr
  rw [showText, Bool.and_false]
  simp only [Bool.false_eq_true, if_false, Action.bind_apply, Action.attempt_apply,
    Action.pure_apply, track, Action.change_apply, hr]
  rfl

/-- That there are no converters is reported, and nothing else is done. -/
theorem turnLenient_of_missing (hdoc : e.Holds d doc) (hr : lookUp h l e = (.error f, e₁))
    (hf : f.isLookup = true) : turnLenient h c d previous l e =
      (.ok (some f), (report Notification.toLenientCategory (sourceOf h e d doc) f e₁).2) := by
  rw [turnLenient, Action.bind_apply, document_apply hdoc]
  simp only [Action.bind_apply, Action.ask_apply, Action.attempt_apply, hr, hf, if_true]
  rfl

/-- Any other failure to look up converters is passed on. -/
theorem turnLenient_of_escape (hdoc : e.Holds d doc) (hr : lookUp h l e = (.error f, e₁))
    (hf : f.isLookup = false) : turnLenient h c d previous l e = (.error f, e₁) := by
  rw [turnLenient, Action.bind_apply, document_apply hdoc]
  simp only [Action.bind_apply, Action.ask_apply, Action.attempt_apply, hr, hf, Bool.false_eq_true,
    if_false, Action.throw_apply]

/-- That it cannot be told whether the document is modified is passed on as well. -/
theorem turnLenient_of_unsure (hdoc : e.Holds d doc) (hr : lookUp h l e = (.ok set, e₁))
    (hm : isModified h d e₁ = (.error f, e₂)) :
    turnLenient h c d previous l e = (.error f, e₂) := by
  rw [turnLenient, Action.bind_apply, document_apply hdoc]
  simp only [Action.bind_apply, Action.ask_apply, Action.attempt_apply, hr, hm]

/-- Otherwise the document is shown with a mapped handle, if it has a file. -/
theorem turnLenient_of_sure (hdoc : e.Holds d doc) (hr : lookUp h l e = (.ok set, e₁))
    (hm : isModified h d e₁ = (.ok modified, e₂)) (hdoc₂ : e₂.Holds d doc) :
    turnLenient h c d previous l e =
      showText h c d l set (sourceOf h e d doc) doc.handle (isBacked h e₁ doc) modified
        previous.isSome (e₂.put d { doc with
          handle := if isBacked h e₁ doc then doc.handle.map (.mapped · ⟨set, sourceOf h e d doc⟩)
            else doc.handle }) := by
  rw [turnLenient, Action.bind_apply, document_apply hdoc]
  simp only [Action.bind_apply, Action.ask_apply, Action.attempt_apply, hr, hm]
  -- without a file the document is not touched
  cases isBacked h e₁ doc with
  | false =>
    simp only [Bool.false_eq_true, if_false, hdoc₂.put_self]
  | true => simp only [if_true, Action.bind_apply, setHandle, modify_apply hdoc₂]

/-- That it cannot be told whether a lenient document is modified is passed on, and the document
does not count as lenient any more. -/
theorem disable_of_unsure (hdoc : e.Holds d doc) (htracked : e.tracked.lookup d = some l)
    (hm : isModified h d { e with tracked := e.tracked.filter fun t => t.1 ≠ d }
      = (.error f, e₁)) :
    disable h c d e = (.error f, e₁) := by
  have hdoc' : Holds { e with tracked := e.tracked.filter fun t => t.1 ≠ d } d doc := hdoc
  rw [disable]
  simp only [Action.bind_apply, Action.ask_apply, htracked, untrack, Action.change_apply,
    document_apply hdoc', hm]

/-- A document that is turned canonical has its old handle when its text is restored. -/
theorem disable_of_restored (hdoc : e.Holds d doc) (htracked : e.tracked.lookup d = some l)
    (hm : isModified h d { e with tracked := e.tracked.filter fun t => t.1 ≠ d }
      = (.ok modified, e₁)) (hdoc₁ : e₁.Holds d doc)
    (he₂ : e₂ = e₁.put d { doc with handle := doc.handle.map Handle.unmapped })
    (hr : restoreText h c d l modified (isBacked h e₂ doc) e₂ = (.ok (), e₃)) :
    disable h c d e = (.ok .success, e₃) := by
  have hdoc' : Holds { e with tracked := e.tracked.filter fun t => t.1 ≠ d } d doc := hdoc
  rw [disable]
  simp only [Action.bind_apply, Action.ask_apply, htracked, untrack, Action.change_apply,
    document_apply hdoc', hm, setHandle, modify_apply hdoc₁, Action.attempt_apply, ← he₂, hr]
  rfl

/-- That the text cannot be restored is reported, and not passed on. -/
theorem disable_of_unrestored (hdoc : e.Holds d doc) (htracked : e.tracked.lookup d = some l)
    (hm : isModified h d { e with tracked := e.tracked.filter fun t => t.1 ≠ d }
      = (.ok modified, e₁)) (hdoc₁ : e₁.Holds d doc)
    (he₂ : e₂ = e₁.put d { doc with handle := doc.handle.map Handle.unmapped })
    (hr : restoreText h c d l modified (isBacked h e₂ doc) e₂ = (.error f, e₃)) :
    disable h c d e = (.ok (.failure f none),
      (report Notification.fromLenientCategory (sourceOf h e d doc) f e₃).2) := by
  have hdoc' : Holds { e with tracked := e.tracked.filter fun t => t.1 ≠ d } d doc := hdoc
  rw [disable]
  simp only [Action.bind_apply, Action.ask_apply, htracked, untrack, Action.change_apply,
    document_apply hdoc', hm, setHandle, modify_apply hdoc₁, Action.attempt_apply, ← he₂, hr]
  rfl

end Course

/-! ## To the lenient dialect -/

/-- What becomes of a document that is turned lenient; `backed` says whether it has a file. -/
structure Shown (c : ControllerSettings) (backed : Bool) (previous : Option Grammar)
    (doc doc' : Document κ) : Prop where
  akin : doc.Akin doc'
  mapped : backed = true → ∃ handle binding,
    doc.handle = some handle ∧ doc'.handle = some (.mapped handle binding)
  unbacked : backed = false → doc'.handle = doc.handle
  modified : doc'.modified = doc.modified
  dialect : doc'.dialect =
    if (doc.modified && previous.isSome) || (backed && !doc.modified && c.reload) then .lenient
    else doc.dialect

/-- The host fails in a way in which it should not: looking up converters fails for another reason
than that there are none, or it cannot be told whether the document is modified. -/
def Erratic (h : Host σ κ) (I : σ → Prop) (d : Nat) : Prop :=
  ∃ s f, I s ∧ ((∃ l, (h.converters l s).1 = .error f ∧ f.isLookup = false) ∨
    (h.checkModified d s).1 = .error f)

/-- Asking for the converters of a language fails for another reason than that there are none. -/
def Escapes (h : Host σ κ) (l : String) (s : σ) : Prop :=
  ∃ f, (h.converters l s).1 = .error f ∧ f.isLookup = false

/-- What keeps a document from being turned lenient or refused: its converters are asked for and
escape, or it cannot be told whether the document is modified. -/
def Breaks (h : Host σ κ) (I : σ → Prop) (d : Nat) (l : String) (s : σ) : Prop :=
  Escapes h l s ∨ ∃ s' f, I s' ∧ (h.checkModified d s').1 = .error f

/-- A host whose converters escape is erratic. -/
theorem Escapes.erratic {h : Host σ κ} {l : String} {s : σ} (hescapes : Escapes h l s) (hs : I s) :
    Erratic h I d := by
  obtain ⟨f, hf, hlookup⟩ := hescapes
  exact ⟨s, f, hs, .inl ⟨l, hf, hlookup⟩⟩

/-- If the host is not erratic, it can be told whether the document is modified. -/
theorem checkModified_of_steady {h : Host σ κ} (hsteady : ¬ Erratic h I d) {s : σ} (hs : I s) :
    (h.checkModified d s).1 = .ok () := by
  rcases hr : (h.checkModified d s).1 with f | ⟨⟩
  · exact absurd ⟨s, f, hs, .inr hr⟩ hsteady
  · rfl

section Transitions

variable {h : Host σ κ} (hI : h.Respects I) (c : ControllerSettings) {backed : Bool}

/-- A document that is backed has a handle. -/
theorem handle_of_isBacked (hb : isBacked h e doc = true) : ∃ handle, doc.handle = some handle := by
  obtain hnone | hsome := Option.eq_none_or_eq_some doc.handle
  · simp [isBacked, path?, hnone] at hb
  · exact hsome

include hI

/-- The text of a modified document is converted, that of any other is left alone. -/
theorem convertWhen_cases (hdoc : e.Holds d doc) (set : κ) (source : String) (b : Bool) :
    Done I e d (convertWhen h d set source b e) fun doc' =>
      doc.Akin doc' ∧ doc'.handle = doc.handle ∧ (doc.modified = true → doc'.modified = true) ∧
        (b = false → doc' = doc) ∧ (b = true → doc'.dialect = .lenient) := by
  cases b with
  | false =>
    refine ⟨e, HostOnly.refl I e, Or.inr ⟨doc, ?_, Document.Akin.refl doc, rfl, id, fun _ => rfl,
      by simp⟩⟩
    rw [hdoc.put_self]
    rfl
  | true =>
    -- a failure to convert is reported, and a failure to replace the text is not
    obtain ⟨e₁, hfirst, hr | ⟨doc', hr, t, rfl⟩⟩ :=
      transcode_cases hI hdoc set .toLenient (within_report Notification.toLenientCategory source)
    · exact ⟨e₁, hfirst, Or.inl hr⟩
    · refine ⟨e₁, hfirst, Or.inr ⟨_, hr, ⟨rfl, rfl, rfl, rfl⟩, rfl, ?_, by simp, fun _ => rfl⟩⟩
      intro hmodified
      simp [hmodified]

/-- The text of a document may be loaded, and is left alone otherwise. -/
theorem loadWhen_cases (hdoc : e.Holds d doc) (b : Bool) :
    Done I e d (loadWhen h d b e) fun doc' =>
      doc.Akin doc' ∧ doc'.handle = doc.handle ∧ (b = false → doc' = doc) ∧
        (b = true → ∀ handle, doc.handle = some handle →
          doc'.modified = false ∧ doc'.dialect = handle.dialect) := by
  cases b with
  | false =>
    refine ⟨e, HostOnly.refl I e, Or.inr ⟨doc, ?_, Document.Akin.refl doc, rfl, fun _ => rfl,
      by simp⟩⟩
    rw [hdoc.put_self]
    rfl
  | true =>
    obtain ⟨e₁, hfirst, hr | ⟨doc', hr, ⟨hnone, rfl⟩ | ⟨handle, t, hhandle, rfl⟩⟩⟩ :=
      load_cases hI hdoc
    · exact ⟨e₁, hfirst, Or.inl hr⟩
    · -- without a handle nothing has been loaded
      refine ⟨e₁, hfirst, Or.inr ⟨_, hr, Document.Akin.refl _, rfl, by simp, ?_⟩⟩
      intro _ handle hhandle
      rw [hnone] at hhandle
      contradiction
    · refine ⟨e₁, hfirst, Or.inr ⟨_, hr, ⟨rfl, rfl, rfl, rfl⟩, rfl, by simp, ?_⟩⟩
      intro _ handle' hhandle'
      rw [hhandle] at hhandle'
      obtain rfl := Option.some.inj hhandle'
      exact ⟨rfl, rfl⟩

omit hI in
/-- Putting back the handle that a document had undoes all that was done to it. -/
theorem restore_handle (hdoc : e.Holds d doc) {t : List (Nat × String)}
    (hshape : Shape I e d doc' t e₁) (hrest : { doc' with handle := doc.handle } = doc) :
    setHandle d doc.handle e₁ = (.ok (), e₁.put d doc) := by
  rw [setHandle, modify_apply (hshape.holds hdoc), hrest]

omit hI in
/-- A document that did not count as lenient before is forgotten again. -/
theorem untrack_apply {l : String} (hfree : e.tracked.lookup d = none)
    (hshape : Shape I e d doc (e.tracked ++ [(d, l)]) e₁) :
    untrack d e₁ = (.ok (), { e₁ with tracked := e.tracked }) := by
  rw [untrack, Action.change_apply, hshape.tracked, List.filter_append,
    filter_tracked_of_free hfree]
  simp

omit hI in
/-- If its text cannot be loaded, then a document that has been turned lenient is as it was before,
which is reported. -/
theorem giveUp_apply (hdoc : e.Holds d doc) {l : String} (hfree : e.tracked.lookup d = none)
    (hshape : Shape I e d doc' (e.tracked ++ [(d, l)]) e₁)
    (hrest : { doc' with handle := doc.handle } = doc) (source : String) (f : Failure) :
    ∃ e', giveUp d source doc.handle f e₁ = (.ok (some f), e') ∧
      HostOnly I e e' := by
  obtain ⟨e₂, hreport⟩ :
      ∃ e₂, report Notification.toLenientCategory source f e₁ = (.ok (), e₂) := ⟨_, rfl⟩
  -- a report changes nothing but the notifications
  have hwithin := within_report (I := I) Notification.toLenientCategory source f e₁
  rw [hreport] at hwithin
  have hreported := hshape.hostOnly hwithin
  have hforgotten := hreported.track e.tracked
  refine ⟨_, ?_, (hforgotten.put doc).toHostOnly hdoc⟩
  simp only [giveUp, Action.bind_apply, hreport, untrack_apply hfree hreported,
    restore_handle hdoc hforgotten hrest]
  rfl

/-- The text of a document with a new handle is shown, or nothing changes. -/
theorem showText_cases (hdoc : e.Holds d doc) (hfree : e.tracked.lookup d = none)
    {handle : Option (Handle (Binding κ))}
    (hshape : Shape I e d { doc with handle } e.tracked e₁)
    (hbacked : backed = true → ∃ inner binding, handle = some (.mapped inner binding))
    (l : String) (set : κ) (source : String) (convert : Bool) :
    (∃ e' f, HostOnly I e e' ∧
      showText h c d l set source doc.handle backed doc.modified convert e₁ = (.ok (some f), e')) ∨
    (∃ e' doc',
      showText h c d l set source doc.handle backed doc.modified convert e₁ = (.ok none, e') ∧
      Shape I e d doc' (e.tracked ++ [(d, l)]) e' ∧ doc.Akin doc' ∧ doc'.handle = handle ∧
      doc'.modified = doc.modified ∧
      doc'.dialect =
        if (doc.modified && convert) || (backed && !doc.modified && c.reload) then .lenient
        else doc.dialect) := by
  obtain ⟨e₂, hsecond, ⟨f, hr, -⟩ | ⟨doc₂, hr, hakin, hhandle, hmodified, hkeep, hconverted⟩⟩ :=
    convertWhen_cases hI (hshape.holds hdoc) set source (doc.modified && convert)
  · -- The conversion has failed: the text is the old one.
    have hshape₂ := hshape.hostOnly hsecond
    refine Or.inl ⟨e₂.put d doc, f, (hshape₂.put doc).toHostOnly hdoc, ?_⟩
    rw [showText_of_unconverted hr, Action.bind_of_ok (restore_handle hdoc hshape₂ rfl)]
    rfl
  have hshape₂ := (hshape.hostOnly hsecond).put doc₂
  have hshape₃ := hshape₂.count l
  rw [showText_of_converted hr]
  cases hload : backed && !doc.modified && c.reload with
  | false =>
    have hsame : doc₂.modified = doc.modified ∧
        doc₂.dialect = if doc.modified && convert then .lenient else doc.dialect := by
      cases hconvert : doc.modified && convert with
      | false =>
        rw [hkeep hconvert]
        exact ⟨rfl, rfl⟩
      | true =>
        have hm : doc.modified = true := (Bool.and_eq_true _ _ ▸ hconvert).1
        exact ⟨(hmodified hm).trans hm.symm, hconverted hconvert⟩
    refine Or.inr ⟨_, doc₂, showText_of_loaded (hload ▸ rfl), hshape₃, hakin.of_handle,
      hhandle, hsame.1, ?_⟩
    rw [Bool.or_false]
    exact hsame.2
  | true =>
    -- The document is unmodified, so its text has not been converted.
    have hall := hload
    simp only [Bool.and_eq_true, Bool.not_eq_true'] at hall
    obtain ⟨⟨hback, hunmodified⟩, -⟩ := hall
    obtain rfl := hkeep (by rw [hunmodified]; rfl)
    obtain ⟨inner, binding, rfl⟩ := hbacked hback
    obtain ⟨e₄, hfourth, ⟨f, hr₄, -⟩ | ⟨doc₄, hr₄, hakin₄, hhandle₄, -, hloaded⟩⟩ :=
      loadWhen_cases hI (hshape₃.holds hdoc) true
    · obtain ⟨e₅, hgiven, hhostOnly⟩ :=
        giveUp_apply hdoc hfree (hshape₃.hostOnly hfourth) rfl source f
      exact Or.inl ⟨e₅, f, hhostOnly, (showText_of_unloaded (hload ▸ hr₄)).trans hgiven⟩
    · refine Or.inr ⟨_, doc₄, showText_of_loaded (hload ▸ hr₄), (hshape₃.hostOnly hfourth).put doc₄,
        hakin₄.of_handle, hhandle₄, ?_, ?_⟩
      · rw [hunmodified]
        exact (hloaded rfl _ rfl).1
      · rw [Bool.or_true, if_pos rfl]
        exact (hloaded rfl _ rfl).2

/-- A document is turned lenient, or nothing changes, also if the host breaks the transition.
Whether the document has a file is asked once, after the converters have been looked up. -/
theorem turnLenient_ends (hdoc : e.Holds d doc) (hhost : I e.host)
    (hfree : e.tracked.lookup d = none) (previous : Option Grammar) (l : String) :
    (∃ e' f, HostOnly I e e' ∧ turnLenient h c d previous l e = (.error f, e') ∧
      Breaks h I d l e.host) ∨
    (∃ e' f, HostOnly I e e' ∧ turnLenient h c d previous l e = (.ok (some f), e')) ∨
    (∃ e' doc' e₁, HostOnly I e e₁ ∧ turnLenient h c d previous l e = (.ok none, e') ∧
      Shape I e d doc' (e.tracked ++ [(d, l)]) e' ∧
      Shown c (isBacked h e₁ doc) previous doc doc') := by
  have hlookUp := within_lookUp hI l e
  rcases hr : lookUp h l e with ⟨f | set, e₁⟩ <;> rw [hr] at hlookUp
  · -- a failure to look up the converters is reported if it is of the expected kind, and escapes
    -- otherwise
    cases hf : f.isLookup with
    | true =>
      exact Or.inr (Or.inl ⟨_, f, hlookUp.trans (within_report _ _ f e₁),
        turnLenient_of_missing hdoc hr hf⟩)
    | false =>
      exact Or.inl ⟨e₁, f, hlookUp, turnLenient_of_escape hdoc hr hf,
        Or.inl ⟨f, (Prod.mk.inj hr).1, hf⟩⟩
  obtain ⟨e₂, hsecond, ⟨f, hm, -, herror⟩ | hm⟩ := isModified_cases hI (hlookUp.holds hdoc)
  · exact Or.inl ⟨e₂, f, hlookUp.trans hsecond, turnLenient_of_unsure hdoc hr hm,
      Or.inr ⟨e₁.host, f, hlookUp.host hhost, herror⟩⟩
  have hshape := (Shape.refl hdoc).hostOnly (hlookUp.trans hsecond)
  -- the handle that the document gets, whatever becomes of its text
  obtain ⟨handle, hnew⟩ : ∃ handle, handle = if isBacked h e₁ doc then
      doc.handle.map (.mapped · ⟨set, sourceOf h e d doc⟩) else doc.handle := ⟨_, rfl⟩
  rw [turnLenient_of_sure hdoc hr hm (hshape.holds hdoc), ← hnew]
  -- a document with a file has a handle, which is mapped
  have hmapped (hb : isBacked h e₁ doc = true) : ∃ inner binding,
      doc.handle = some inner ∧ handle = some (.mapped inner binding) := by
    obtain ⟨inner, hinner⟩ := handle_of_isBacked hb
    rw [hnew, if_pos hb, hinner]
    exact ⟨inner, _, rfl, rfl⟩
  have hbacked (hb : isBacked h e₁ doc = true) : ∃ inner binding,
      handle = some (.mapped inner binding) := by
    obtain ⟨inner, binding, -, heq⟩ := hmapped hb
    exact ⟨inner, binding, heq⟩
  obtain ⟨e', f, hhostOnly, hshow⟩ | ⟨e', doc', hshow, hshape', hakin, hhandle, hmod, hdialect⟩ :=
    showText_cases hI c hdoc hfree (hshape.put { doc with handle }) hbacked l set
      (sourceOf h e d doc) previous.isSome
  · exact Or.inr (Or.inl ⟨e', f, hhostOnly, hshow⟩)
  · refine Or.inr (Or.inr ⟨e', doc', e₁, hlookUp, hshow, hshape', hakin, fun hb => ?_, fun hb => ?_,
      hmod, hdialect⟩)
    · obtain ⟨inner, binding, hinner, heq⟩ := hmapped hb
      exact ⟨inner, binding, hinner, hhandle.trans heq⟩
    · rw [hhandle, hnew, hb]
      rfl

/-- The same where the paths of files stay as they are. -/
theorem turnLenient_cases (hdoc : e.Holds d doc) (hhost : I e.host)
    (hbacked : ∀ e' : Editor σ κ, I e'.host → isBacked h e' doc = backed)
    (hfree : e.tracked.lookup d = none) (previous : Option Grammar) (l : String) :
    (∃ e' f, HostOnly I e e' ∧ turnLenient h c d previous l e = (.error f, e') ∧
      Breaks h I d l e.host) ∨
    (∃ e' f, HostOnly I e e' ∧ turnLenient h c d previous l e = (.ok (some f), e')) ∨
    (∃ e' doc', turnLenient h c d previous l e = (.ok none, e') ∧
      Shape I e d doc' (e.tracked ++ [(d, l)]) e' ∧ Shown c backed previous doc doc') := by
  obtain herror | hrefused | ⟨e', doc', e₁, hfirst, hr, hshape, hshown⟩ :=
    turnLenient_ends hI c hdoc hhost hfree previous l
  · exact Or.inl herror
  · exact Or.inr (Or.inl hrefused)
  · rw [hbacked e₁ (hfirst.host hhost)] at hshown
    exact Or.inr (Or.inr ⟨e', doc', hr, hshape, hshown⟩)

/-! ## To the canonical dialect -/

/-- The text of a document with its old handle is converted or loaded, if need be. -/
theorem restoreText_cases (hdoc : e.Holds d doc)
    (hbacked : backed = true → ∃ handle, doc.handle = some handle) (l : String) {modified : Bool}
    (hmodified : doc.modified = modified) :
    Done I e d (restoreText h c d l modified backed e) fun doc' =>
      doc.Akin doc' ∧ doc'.handle = doc.handle ∧ doc'.modified = modified ∧
        ((∀ handle, doc.handle = some handle → handle.isMapped = false) → doc'.dialect =
          if modified || (backed && c.reload) then .canonical else doc.dialect) := by
  unfold restoreText
  cases modified with
  | true =>
    obtain ⟨e₁, hfirst, ⟨f, hr, hfault⟩ | ⟨set, hr⟩⟩ :=
      (Confined.outside (hI.converters l)).cases e
    · refine ⟨e₁, hfirst, Or.inl ⟨f, ?_, hfault⟩⟩
      rw [if_pos rfl, Action.bind_apply, hr]
    -- the converters have been found, and now the text is converted without a report
    obtain ⟨e₂, hsecond, ⟨f, hr₂, hfault⟩ | ⟨doc', hr₂, t, rfl⟩⟩ :=
      transcode_cases hI (hfirst.holds hdoc) set .toCanonical fun f => Within.pure ()
    · refine ⟨e₂, hfirst.trans hsecond, Or.inl ⟨f, ?_, hfault⟩⟩
      rw [if_pos rfl, Action.bind_apply, hr]
      exact hr₂
    · let doc' : Document κ :=
        { doc with
          text := t
          dialect := .canonical
          modified := doc.modified || decide (doc.text ≠ t) }
      refine ⟨e₂, hfirst.trans hsecond,
        Or.inr ⟨doc', ?_, ⟨rfl, rfl, rfl, rfl⟩, rfl, ?_, fun _ => rfl⟩⟩
      · rw [if_pos rfl, Action.bind_apply, hr]
        exact hr₂
      · simp [doc', hmodified]
  | false =>
    rw [if_neg Bool.false_ne_true]
    obtain ⟨e₁, hfirst, hr | ⟨doc', hr, hakin, hhandle, hkeep, hloaded⟩⟩ :=
      loadWhen_cases hI hdoc (backed && c.reload)
    · exact ⟨e₁, hfirst, Or.inl hr⟩
    refine ⟨e₁, hfirst, Or.inr ⟨doc', hr, hakin, hhandle, ?_⟩⟩
    cases hb : backed && c.reload with
    | false =>
      rw [hkeep hb]
      exact ⟨hmodified, fun _ => rfl⟩
    | true =>
      -- a text that is loaded is in the dialect of the handle that has been put back
      obtain ⟨handle, hsome⟩ := hbacked (Bool.and_eq_true _ _ ▸ hb).1
      obtain ⟨hmod, hdialect⟩ := hloaded hb handle hsome
      refine ⟨hmod, fun hplain => ?_⟩
      rw [hdialect, Handle.dialect, hplain handle hsome]
      rfl

omit hI in
/-- A document that does not count as lenient is left alone. -/
theorem disable_of_free (hfree : e.tracked.lookup d = none) :
    disable h c d e = (.ok .success, e) := by
  rw [disable, Action.bind_apply, Action.ask_apply]
  simp only [hfree]
  rfl

/-- A document is turned canonical: it has its old handle back, and unless the host fails its text
is canonical too, provided that it is modified or loaded anew through a handle that is a file.
Whether it has a file is asked once it has its old handle. -/
theorem disable_ends (hdoc : e.Holds d doc) (hhost : I e.host) {l : String}
    (htracked : e.tracked.lookup d = some l) :
    (∃ e' f, disable h c d e = (.error f, e') ∧
      Shape I e d doc (e.tracked.filter fun t => t.1 ≠ d) e' ∧ e'.faults ≠ [] ∧
      ∃ s, I s ∧ (h.checkModified d s).1 = .error f) ∨
    (∃ e' doc' outcome e₁, I e₁.host ∧ disable h c d e = (.ok outcome, e') ∧
      Shape I e d doc' (e.tracked.filter fun t => t.1 ≠ d) e' ∧ doc.Akin doc' ∧
      doc'.handle = doc.handle.map Handle.unmapped ∧ doc'.modified = doc.modified ∧
      (e'.faults = [] →
        (∀ handle, doc.handle = some handle → handle.unmapped.isMapped = false) →
        doc'.dialect = if doc.modified || (isBacked h e₁ doc && c.reload) then .canonical
          else doc.dialect)) := by
  have hshape₁ := (Shape.refl (I := I) hdoc).track (e.tracked.filter fun t => t.1 ≠ d)
  obtain ⟨e₂, hsecond, ⟨f, hm, hfault, herror⟩ | hm⟩ := isModified_cases hI (hshape₁.holds hdoc)
  · exact Or.inl ⟨e₂, f, disable_of_unsure hdoc htracked hm, hshape₁.hostOnly hsecond, hfault,
      _, hshape₁.host hhost, herror⟩
  have hshape₂ := hshape₁.hostOnly hsecond
  have hdoc₂ := hshape₂.holds hdoc
  obtain ⟨e₃, he₃⟩ : ∃ e₃, e₃ = e₂.put d { doc with handle := doc.handle.map Handle.unmapped } :=
    ⟨_, rfl⟩
  have hshape₃ : Shape I e d { doc with handle := doc.handle.map Handle.unmapped }
      (e.tracked.filter fun t => t.1 ≠ d) e₃ := he₃ ▸ hshape₂.put _
  have hhandle : isBacked h e₃ doc = true →
      ∃ handle, doc.handle.map Handle.unmapped = some handle := by
    intro hb
    obtain ⟨handle, hsome⟩ := handle_of_isBacked hb
    exact ⟨handle.unmapped, by rw [hsome, Option.map_some]⟩
  obtain ⟨e₄, hfourth, ⟨f, hr, hfault⟩ | ⟨doc', hr, hakin, hhandle', hmod, hdialect⟩⟩ :=
    restoreText_cases hI c (hshape₃.holds hdoc) hhandle l rfl
  · -- The text could not be restored, and the host is at fault.
    have hwithin := within_report (I := I) Notification.fromLenientCategory (sourceOf h e d doc) f e₄
    refine Or.inr ⟨_, _, .failure f none, e₃, hshape₃.host hhost,
      disable_of_unrestored hdoc htracked hm hdoc₂ he₃ hr, hshape₃.hostOnly (hfourth.trans hwithin),
      ⟨rfl, rfl, rfl, rfl⟩, rfl, rfl, ?_⟩
    intro hnil _
    exact absurd hnil (hwithin.toFrame.faults_ne_nil hfault)
  · refine Or.inr ⟨_, doc', .success, e₃, hshape₃.host hhost,
      disable_of_restored hdoc htracked hm hdoc₂ he₃ hr, (hshape₃.hostOnly hfourth).put doc',
      hakin.of_handle, hhandle', hmod, fun _ hflat => hdialect ?_⟩
    intro handle hsome
    obtain ⟨inner, hinner, rfl⟩ := Option.map_eq_some_iff.mp hsome
    exact hflat inner hinner

/-- The same where the paths of files stay as they are. -/
theorem disable_cases (hdoc : e.Holds d doc) (hhost : I e.host)
    (hbacked : ∀ e' : Editor σ κ, I e'.host → isBacked h e' doc = backed)
    {l : String} (htracked : e.tracked.lookup d = some l) :
    (∃ e' f, disable h c d e = (.error f, e') ∧
      Shape I e d doc (e.tracked.filter fun t => t.1 ≠ d) e' ∧ e'.faults ≠ [] ∧
      ∃ s, I s ∧ (h.checkModified d s).1 = .error f) ∨
    (∃ e' doc' outcome, disable h c d e = (.ok outcome, e') ∧
      Shape I e d doc' (e.tracked.filter fun t => t.1 ≠ d) e' ∧ doc.Akin doc' ∧
      doc'.handle = doc.handle.map Handle.unmapped ∧ doc'.modified = doc.modified ∧
      (e'.faults = [] →
        (∀ handle, doc.handle = some handle → handle.unmapped.isMapped = false) →
        doc'.dialect = if doc.modified || (backed && c.reload) then .canonical
          else doc.dialect)) := by
  obtain herror | ⟨e', doc', outcome, e₁, hhost₁, hends⟩ := disable_ends hI c hdoc hhost htracked
  · exact Or.inl herror
  · rw [hbacked e₁ hhost₁] at hends
    exact Or.inr ⟨e', doc', outcome, hends⟩

/-- Whatever fails, a document that is turned canonical is replaced by one like it, and does not
count as lenient from then on. -/
theorem exists_shape_disable (hdoc : e.Holds d doc) (hhost : I e.host) :
    ∃ doc', doc.Akin doc' ∧
      Shape I e d doc' (e.tracked.filter fun t => t.1 ≠ d) (disable h c d e).2 := by
  cases htracked : e.tracked.lookup d with
  | none =>
    -- a document that does not count as lenient is left alone
    refine ⟨doc, .refl doc, ?_⟩
    rw [disable_of_free c htracked, filter_tracked_of_free htracked]
    exact .refl hdoc
  | some l =>
    obtain ⟨e', f, hr, hshape, -⟩ | ⟨e', doc', outcome, e₁, -, hr, hshape, hakin, -⟩ :=
      disable_ends hI c hdoc hhost htracked
    · exact ⟨doc, .refl doc, hr ▸ hshape⟩
    · exact ⟨doc', hakin, hr ▸ hshape⟩

end Transitions

/-! ## Handling a change of grammar -/

section Handling

variable {h : Host σ κ} {c : ControllerSettings} {g : Grammar}
  {revert : Nat → Grammar → Action (Editor σ κ) Unit} {previous : Option Grammar} {l : String}

/-- Whether a document that is not lenient gets lenient depends on `turnLenient` alone. -/
theorem enable_of_free (hfree : e.tracked.lookup d = none)
    (revert : Nat → Grammar → Action (Editor σ κ) Unit) (previous : Option Grammar) (l : String) :
    enable h c revert d previous l e = (turnLenient h c d previous l >>= fun
      | none => pure .success
      | some f => abortEnable revert d previous f) e := by
  have hfalse : ¬ isLenient e d = true := by simp [isLenient, hfree]
  rw [enable, Action.bind_apply, Action.ask_apply]
  exact congrFun (if_neg hfalse) e

/-- Nothing is done for a grammar of the language in which the document is shown. -/
theorem handleGrammar_of_same (hl : c.languageOf g = some l) (hsame : e.tracked.lookup d = some l) :
    handleGrammar h c revert d g previous e = (.ok .success, e) := by
  rw [handleGrammar, Action.bind_apply, Action.ask_apply]
  simp only [hsame, hl, if_true]
  rfl

/-- For a canonical grammar the document is turned canonical. -/
theorem handleGrammar_of_none (hl : c.languageOf g = none) :
    handleGrammar h c revert d g previous e = disable h c d e := by
  rw [handleGrammar, Action.bind_apply, Action.ask_apply]
  cases htracked : e.tracked.lookup d with
  | none =>
    -- a document that is canonical already is left alone by both
    simp only [htracked, hl]
    exact (disable_of_free c htracked).symm
  | some current =>
    simp only [htracked, hl]
    rw [if_neg (Option.some_ne_none current).symm, Action.bind_apply]
    rcases disable h c d e with ⟨_ | _, e₁⟩ <;> rfl

/-- For any other grammar the document is turned canonical first, which does nothing to a document
that is so. -/
theorem handleGrammar_of_other (hl : c.languageOf g = some l)
    (hother : e.tracked.lookup d ≠ some l) :
    handleGrammar h c revert d g previous e =
      (disable h c d >>= fun _ => enable h c revert d previous l) e := by
  rw [handleGrammar, Action.bind_apply, Action.ask_apply]
  -- turning a canonical document canonical does nothing
  cases htracked : e.tracked.lookup d with
  | none =>
    simp only [htracked, hl]
    rw [Action.bind_of_ok (disable_of_free c htracked)]
  | some current =>
    simp only [htracked, hl]
    rw [if_neg fun heq => hother (htracked.trans heq.symm)]

/-- So a canonical document is turned lenient at once. -/
theorem handleGrammar_of_free (hl : c.languageOf g = some l) (hfree : e.tracked.lookup d = none)
    (revert : Nat → Grammar → Action (Editor σ κ) Unit) (previous : Option Grammar) :
    handleGrammar h c revert d g previous e = (turnLenient h c d previous l >>= fun
      | none => pure .success
      | some f => abortEnable revert d previous f) e := by
  have hother : e.tracked.lookup d ≠ some l := fun hsome => by
    rw [hfree] at hsome
    contradiction
  rw [handleGrammar_of_other hl hother, Action.bind_of_ok (disable_of_free c hfree),
    enable_of_free hfree]

end Handling

end Editor

end Dialects

import Dialects.Proofs.Editor.Naming

/-!
# What goes on record

Whatever is done to one document gives no other one a new handle, and what it adds to the
notifications that a save makes stale is about this document, under the name by which it is called
from then on (`recorded_perform`). For a document may be turned lenient several times in the course
of one change of grammar, but before it is turned lenient it has its own handle, so that it is
mapped under its present path.

## Main definitions

* `Host.Dependable`: what the host must not do behind the editor's back;
* `Accounted`: what holds of a document during a change of its grammar;
* `Recorded`: what holds after a deed.

## Main results

* `kept_accounted`: changes of grammar are accounted for, however deep they are nested;
* `recorded_perform`: what a deed does to names and notifications.
-/

namespace Dialects

/-- Nothing but what is done to the host from outside renames a file, every file has a path, and it
can always be told whether a document is modified. -/
structure Host.Dependable {σ κ : Type} (h : Host σ κ) : Prop where
  paths : ∀ path : Nat → String, h.Respects fun s => ∀ n, h.files.path n s = path n
  named : ∀ n s, h.files.path n s ≠ ""
  modified : ∀ d s, (h.checkModified d s).1 = .ok ()

namespace Editor

open Dialects.Action

variable {σ κ α : Type} {h : Host σ κ} {c : ControllerSettings} {e₀ e e' : Editor σ κ} {d : Nat}
  {doc : Document κ}

/-! ## Changes of grammar -/

/-- Notifications that no save makes stale. -/
def Lasting (category : String) (_ : Option String) : Prop :=
  category ∉ Notification.staleOnSave

/-- Every document stands on its own file, mapped if it counts as lenient, and files have the given
paths. -/
abbrev Grounded (h : Host σ κ) (bases : List (Handle (Binding κ))) (path : Nat → String) (d : Nat)
    (observers : List Observer) (documents : Nat → Option Nat) (e : Editor σ κ) : Prop :=
  SteadyAt (fun s => ∀ n, h.files.path n s = path n) bases.length (StandsOn bases fun _ => True) d
    observers documents e

section Changes

variable {bases : List (Handle (Binding κ))} {path : Nat → String} {observers : List Observer}
  {documents : Nat → Option Nat} {p : String}

/-- The account of what has happened to the document `d`, whose file has the path `p`, since the
editor was `e₀`: either it has the handle that it had then, and nothing has been reported that a
save makes stale, or it bears this path as its name if it is mapped, and what has been reported has
been so under this name. -/
structure Accounted (h : Host σ κ) (bases : List (Handle (Binding κ))) (path : Nat → String)
    (d : Nat) (observers : List Observer) (documents : Nat → Option Nat) (p : String)
    (e₀ e : Editor σ κ) : Prop where
  grounded : Grounded h bases path d observers documents e
  since : Since Lasting (· = e₀.handleOf d) e₀ d e ∨ Since (Under p) (Bears p) e₀ d e

/-- Documents that stand on their files go on to do so. -/
theorem placing_grounded (hh : h.Dependable) : Placing h (fun s => ∀ n, h.files.path n s = path n)
    bases.length (StandsOn bases fun _ => True) :=
  placing_standsOn fun _ _ s _ => hh.named _ s

variable (hfiles : ∀ base ∈ bases, ∃ n, base = .file n)

include hfiles

/-- A document that does not count as lenient has its own handle, which is a file. -/
theorem SteadyAt.bare (hs : Grounded h bases path d observers documents e)
    (hfree : e.tracked.lookup d = none) :
    ∃ doc n, e.Holds d doc ∧ bases[d]? = some (.file n) ∧ doc.handle = some (.file n) := by
  obtain ⟨doc, hdoc, -⟩ := hs.holds
  have hbase := List.getElem?_eq_getElem (hs.toSteady.lt hdoc)
  obtain ⟨n, hn⟩ := hfiles _ (List.getElem_mem (hs.toSteady.lt hdoc))
  rw [hn] at hbase
  refine ⟨doc, n, hdoc, hbase, (hs.toSteady.placed d doc hdoc).own _ hbase trivial ?_⟩
  rw [isLenient, hfree]
  rfl

/-- A document that is not in the table has no mapped handle, and so may bear any name. -/
theorem SteadyAt.bears (hs : Grounded h bases path d observers documents e)
    (hfree : e.tracked.lookup d = none) (p : String) : Bears p (e.handleOf d) := by
  obtain ⟨doc, n, hdoc, -, hhandle⟩ := SteadyAt.bare hfiles hs hfree
  rw [handleOf_eq hdoc, hhandle]
  intro inner b hmapped
  cases hmapped

/-- So a document that does not count as lenient is free to be mapped under its path. -/
theorem Accounted.of_free (ha : Accounted h bases path d observers documents p e₀ e)
    (hfree : e.tracked.lookup d = none) : Since (Under p) (Bears p) e₀ d e := by
  obtain hs | hs := ha.since
  · exact hs.imp (fun _ _ hlasting hstale => absurd hstale hlasting)
      fun _ => SteadyAt.bears hfiles ha.grounded hfree p
  · exact hs

variable (hh : h.Dependable)

include hh

/-- Turning the lenient mode off is accounted for. -/
theorem Accounted.disable (ha : Accounted h bases path d observers documents p e₀ e) :
    Accounted h bases path d observers documents p e₀ (disable h c d e).2 := by
  cases htracked : e.tracked.lookup d with
  | none =>
    rw [disable_of_free c htracked]
    exact ha
  | some l =>
    -- a name that the document bore from before is dropped with the mapped handle
    have hgrounded := SteadyAt.disable (c := c) (hh.paths path) (placing_grounded hh)
      (fun d s _ => hh.modified d s) e ha.grounded
    have hany : Since (Under p) (fun _ => True) e₀ d e := by
      obtain hs | hs := ha.since
      · exact hs.imp (fun _ _ hlasting hstale => absurd hstale hlasting) fun _ => trivial
      · exact hs.imp (fun _ _ => id) fun _ => trivial
    refine ⟨hgrounded, Or.inr ((Since.disable p e hany).imp (fun _ _ => id) fun _ => ?_)⟩
    -- the document is a canonical one now
    obtain ⟨doc, hdoc, -⟩ := ha.grounded.holds
    obtain ⟨doc', -, hshape⟩ :=
      exists_shape_disable (c := c) (hh.paths path) hdoc ha.grounded.toSteady.host
    refine SteadyAt.bears hfiles hgrounded ?_ p
    rw [hshape.tracked]
    exact lookup_filter_self d e.tracked

variable {n : Nat} (hbase : bases[d]? = some (.file n))

include hbase

/-- Turning a document lenient is accounted for, under the path of its file. -/
theorem Accounted.turnLenient (ha : Accounted h bases path d observers documents (path n) e₀ e)
    (hfree : e.tracked.lookup d = none) (previous : Option Grammar) (l : String) :
    Accounted h bases path d observers documents (path n) e₀ (turnLenient h c d previous l e).2 := by
  obtain ⟨doc, m, hdoc, hm, hhandle⟩ := SteadyAt.bare hfiles ha.grounded hfree
  obtain rfl := Handle.file.inj (Option.some.inj (hm.symm.trans hbase))
  -- a document that is not lenient has the handle of its file, whose path is never empty
  have hsource : sourceOf h e d doc = path m := by
    have hfile : path? h e doc = some (path m) := by
      rw [path?, hhandle, Option.map_some, Handle.base, ha.grounded.toSteady.host m]
    have hnamed : path m ≠ "" := by
      rw [← ha.grounded.toSteady.host m]
      exact hh.named m e.host
    rw [sourceOf, hfile]
    exact if_neg hnamed
  exact ⟨SteadyAt.turnLenient (hh.paths path) (placing_grounded hh) previous l ha.grounded
    hfree, Or.inr ((ha.of_free hfiles hfree).turnLenient hdoc hsource previous l)⟩

variable (h c path) in
/-- What keeps a change of grammar accounted for. -/
theorem kept_accounted (e₀ : Editor σ κ) (observers : List Observer)
    (documents : Nat → Option Nat) :
    Kept h c d observers (Accounted h bases path d observers documents (path n) e₀) := by
  have hkept : Kept h c d observers (Grounded h bases path d observers documents) :=
    kept_steadyAt c (hh.paths path) (placing_grounded hh) (fun d s _ => hh.modified d s) d
      observers documents
  -- what follows from unchanged handles and notifications is said once for three of the cases
  have hsame {e e' : Editor σ κ} (ha : Accounted h bases path d observers documents (path n) e₀ e)
      (hgrounded : Grounded h bases path d observers documents e')
      (hhandles : ∀ d', e'.handleOf d' = e.handleOf d')
      (hnotifications : e'.notifications = e.notifications) :
      Accounted h bases path d observers documents (path n) e₀ e' :=
    ⟨hgrounded, ha.since.imp (·.of_same hhandles hnotifications)
      (·.of_same hhandles hnotifications)⟩
  exact {
    attached := fun e ha => hkept.attached e ha.grounded
    grammar := fun g e ha doc hdoc =>
      hsame ha (hkept.grammar g e ha.grounded doc hdoc) (handleOf_put hdoc rfl) rfl
    mark := fun name told e ha => hsame ha (hkept.mark name told e ha.grounded) (fun _ => rfl) rfl
    noted := fun n g e ha => hsame ha (hkept.noted n g e ha.grounded) (fun _ => rfl) rfl
    disable := fun e ha => ha.disable hfiles hh
    lenient := fun previous l e ha hfree => ha.turnLenient hfiles hh hbase hfree previous l }

end Changes

/-! ## Deeds -/

/-- The document to which something is done. -/
def Deed.subject : Deed σ → Option Nat
  | .observe d | .setGrammar d _ | .enable d _ _ | .disable d | .edit d _ | .load d | .save d
  | .destroy d => some d
  | .unobserve _ | .elsewhere _ => none

/-- What is on record after a deed: no other document has got a new handle, the document itself has
the old one or is called by its path, and what has been reported that a save makes stale has been so
under the name by which it is called now. -/
structure Recorded (h : Host σ κ) (deed : Deed σ) (e e' : Editor σ κ) : Prop where
  others : ∀ d, deed.subject ≠ some d → e'.handleOf d = e.handleOf d
  own : ∀ d, deed.subject = some d → e'.handleOf d = e.handleOf d ∨ called h e' d = filed h e' d
  gained : e.notifications.Gained (fun category source => category ∈ Notification.staleOnSave →
    ∃ d name, deed.subject = some d ∧ called h e' d = some name ∧ source = some name)
    e'.notifications

namespace Recorded

variable {deed : Deed σ} {p : String}

/-- All handles and all notifications are as they were. -/
theorem of_same (hhandles : ∀ d, e'.handleOf d = e.handleOf d)
    (hsame : e'.notifications = e.notifications) : Recorded h deed e e' :=
  ⟨fun d _ => hhandles d, fun d _ => Or.inl (hhandles d), hsame ▸ .refl _ _⟩

/-- What is recorded depends on handles, host and notifications alone. -/
theorem congr {e₁ e₂ : Editor σ κ} (hr : Recorded h deed e e₁)
    (hhandles : ∀ d, e₂.handleOf d = e₁.handleOf d) (hhost : e₂.host = e₁.host)
    (hsame : e₂.notifications = e₁.notifications) : Recorded h deed e e₂ := by
  have hcalled (d : Nat) : called h e₂ d = called h e₁ d := by
    rw [called, called, hhandles, hhost]
  have hfiled (d : Nat) : filed h e₂ d = filed h e₁ d := by
    rw [filed, filed, hhandles, hhost]
  refine ⟨fun d hd => (hhandles d).trans (hr.others d hd), fun d hd => ?_, ?_⟩
  · rw [hhandles, hcalled, hfiled]
    exact hr.own d hd
  · simp only [hsame, hcalled]
    exact hr.gained

/-- A deed that adds nothing that a save makes stale is recorded. -/
theorem of_lasting (hsubject : deed.subject = some d)
    (hs : Since Lasting (· = e.handleOf d) e d e') : Recorded h deed e e' := by
  refine ⟨fun d' hd => hs.others d' fun heq => ?_, fun d' hd => ?_, ?_⟩
  · exact hd (heq ▸ hsubject)
  · obtain rfl := Option.some.inj (hsubject.symm.trans hd)
    exact Or.inl hs.own
  · exact hs.gained.mono fun _ _ hlasting hstale => absurd hstale hlasting

/-- A deed that reports under the path of its document is recorded. -/
theorem of_under (hsubject : deed.subject = some d) (hfiled : filed h e' d = some p)
    (hs : Since (Under p) (Bears p) e d e') : Recorded h deed e e' := by
  have hcalled : called h e' d = filed h e' d := by
    -- the only name that the document can bear is the path
    refine called_eq_filed fun q hq => ?_
    obtain rfl := Option.some.inj (hfiled.symm.trans hq)
    exact hs.own
  refine ⟨fun d' hd => hs.others d' fun heq => ?_, fun d' hd => ?_, ?_⟩
  · exact hd (heq ▸ hsubject)
  · obtain rfl := Option.some.inj (hsubject.symm.trans hd)
    exact Or.inr hcalled
  · exact hs.gained.mono fun category source hunder hstale =>
      ⟨d, p, hsubject, hcalled.trans hfiled, hunder hstale⟩

end Recorded

section Deeds

variable {bases : List (Handle (Binding κ))} (hfiles : ∀ base ∈ bases, ∃ n, base = .file n)
  (hh : h.Dependable)

/-- The path of a document's file is that of the file that the document started with. -/
theorem Steady.filed_eq {path : Nat → String}
    (hs : Steady (fun s => ∀ n, h.files.path n s = path n) bases.length
      (StandsOn bases fun _ => True) e) (d : Nat) :
    filed h e d = bases[d]?.map fun base => path base.base := by
  cases hdoc : e.documents[d]? with
  | none =>
    have hbase : bases[d]? = none := by
      rw [List.getElem?_eq_none_iff, ← hs.count]
      exact List.getElem?_eq_none_iff.mp hdoc
    rw [filed, handleOf, hdoc, hbase]
    rfl
  | some doc =>
    have hbase := List.getElem?_eq_getElem (hs.lt hdoc)
    have hfile := (hs.placed d doc hdoc).file _ hbase
    rw [filed, handleOf_eq hdoc, hbase]
    cases hhandle : doc.handle with
    | none =>
      rw [hhandle] at hfile
      contradiction
    | some handle =>
      rw [hhandle] at hfile
      rw [Option.map_some, Option.map_some, ← Option.some.inj hfile, hs.host]

/-- The paths of files are what they are. -/
theorem Coherent.steady (hc : Coherent (fun _ => True) bases (fun _ => True) e) :
    Steady (fun s => ∀ n, h.files.path n s = h.files.path n e.host) bases.length
      (StandsOn bases fun _ => True) e :=
  { coherent_iff.mp hc with host := fun _ => rfl }

include hh

/-- Nothing that is done to documents renames a file. -/
theorem filed_perform (hc : Coherent (fun _ => True) bases (fun _ => True) e) {deed : Deed σ}
    (hdestroy : ∀ d, deed ≠ .destroy d) (helsewhere : ∀ f, deed ≠ .elsewhere f) (d : Nat) :
    filed h (deed.perform h c e).2 d = filed h e d := by
  have hs := Coherent.steady (h := h) hc
  have hkept : Preserves (Steady (fun s => ∀ n, h.files.path n s = h.files.path n e.host)
      bases.length (StandsOn bases fun _ => True)) (deed.perform h c) :=
    Steady.perform (hh.paths _) (placing_grounded hh) (fun d s _ => hh.modified d s)
      (fun d observers _ => welcoming_standsOn d observers) (fun d hd => absurd hd (hdestroy d))
      fun f hf => absurd hf (helsewhere f)
  -- the paths are kept as well, so that they can be compared with those of the start
  have hs' := hkept e hs
  rw [hs'.filed_eq, hs.filed_eq]

omit hh in
theorem Recorded.of_accounted {deed : Deed σ} {path : Nat → String} {observers : List Observer}
    {documents : Nat → Option Nat} {n : Nat} (hsubject : deed.subject = some d)
    (hbase : bases[d]? = some (.file n))
    (ha : Accounted h bases path d observers documents (path n) e e') : Recorded h deed e e' := by
  -- the path that the document bears as its name is still that of its file
  have hfiled : filed h e' d = some (path n) := by
    rw [ha.grounded.toSteady.filed_eq, hbase]
    rfl
  exact ha.since.elim (.of_lasting hsubject) (.of_under hsubject hfiled)

omit hh in
/-- Who no longer follows a document makes no difference to handles and notifications. -/
theorem recorded_unobserve (h : Host σ κ) (n : Nat) (e : Editor σ κ) :
    Recorded h (.unobserve n) e (unobserve n e).2 := by
  rw [unobserve, Action.bind_apply, Action.ask_apply]
  dsimp only
  cases e.observations[n]? with
  | none => exact .of_same (fun _ => rfl) rfl
  | some o =>
    refine .of_same (fun d => handleOf_modify ?_ o.document d e) rfl
    exact fun _ => rfl

omit hh in
/-- A document is saved under the name that its handle keeps. -/
theorem recorded_save {n : Nat} (hdoc : e.Holds d doc)
    (hhandle : doc.handle = some (.file n) ∨ ∃ b, doc.handle = some (.mapped (.file n) b)) :
    Recorded h (.save d) e (save h d e).2 := by
  have hsame (d' : Nat) := handleOf_save h d d' e
  obtain hfile | ⟨b, hmapped⟩ := hhandle
  · exact .of_same hsame (save_file hdoc hfile)
  have hcalled : called h (save h d e).2 d = some b.source := by
    rw [called, hsame d, handleOf_eq hdoc, hmapped]
    rfl
  refine ⟨fun d' _ => hsame d', fun d' _ => Or.inl (hsame d'), ?_⟩
  -- the notifications are cleared, left alone, or added to under the kept name
  obtain ⟨e', hr, hdismissed⟩ | ⟨f, e', hr, hsilent | ⟨g, hreported⟩⟩ :=
    save_mapped (h := h) hdoc hmapped
  · rw [hr, hdismissed]
    exact .dismissWhere _ _ _
  · rw [hr, hsilent]
    exact .refl _ _
  · rw [hr] at hcalled ⊢
    rw [hreported]
    exact .report (fun _ => ⟨d, b.source, rfl, hcalled, rfl⟩) g _

include hfiles

omit hh in
/-- A document of a steady editor has a file to stand on. -/
theorem Steady.exists_file {path : Nat → String}
    (hs : Steady (fun s => ∀ n, h.files.path n s = path n) bases.length
      (StandsOn bases fun _ => True) e) (hdoc : e.Holds d doc) :
    ∃ n, bases[d]? = some (.file n) := by
  obtain ⟨n, hn⟩ := hfiles _ (List.getElem_mem (hs.lt hdoc))
  exact ⟨n, hn ▸ List.getElem?_eq_getElem (hs.lt hdoc)⟩

/-- To begin to follow a document is to handle its present grammar. -/
theorem recorded_observe
    (hs : Steady (fun s => ∀ n, h.files.path n s = h.files.path n e.host) bases.length
      (StandsOn bases fun _ => True) e) (hdoc : e.Holds d doc) :
    Recorded h (.observe d) e (observe h c d e).2 := by
  obtain ⟨n, hn⟩ := hs.exists_file hfiles hdoc
  have hdoc₁ : (entered e d).Holds d doc := hdoc
  have hfollow : Accounted h bases (fun n => h.files.path n e.host) d
      doc.grammarObservers.callbacks (entered e d).documentOf (h.files.path n e.host) e
      (follow h c (changeGrammar h c) e.observations.length doc.grammar (entered e d)).2 := by
    have hk := kept_accounted h c (fun n => h.files.path n e.host) hfiles hh hn e
      doc.grammarObservers.callbacks (entered e d).documentOf
    refine hk.follow (hk.setGrammar maxNesting)
      (fun _ _ ha => SteadyAt.document_of_entered ha.grounded) doc.grammar (entered e d) ?_
    exact ⟨(hs.enter d).at hdoc₁, Or.inl ((Since.refl Lasting e d).of_same (fun _ => rfl) rfl)⟩
  have hrecorded : Recorded h (.observe d) e _ := .of_accounted rfl hn hfollow
  rw [observe_eq h c hdoc, Action.bind_apply]
  rcases hr : follow h c (changeGrammar h c) e.observations.length doc.grammar (entered e d)
    with ⟨f | _, e₂⟩
  · rw [hr] at hrecorded
    exact hrecorded
  · -- that the document is followed from then on makes no difference
    rw [hr] at hrecorded
    exact hrecorded.congr (handleOf_modify (f := (followed · e.observations.length))
      (fun _ => rfl) d · e₂) rfl rfl

omit hfiles hh in
/-- What is done to a document that does not exist comes to nothing. -/
theorem recorded_of_none {deed : Deed σ} (hsubject : deed.subject = some d)
    (hdestroy : deed ≠ .destroy d) (hdoc : e.documents[d]? = none) :
    Recorded h deed e (deed.perform h c e).2 := by
  cases deed with
  | unobserve n | elsewhere f => contradiction
  | observe d' =>
    obtain rfl := Option.some.inj hsubject
    rw [Deed.perform, snd_bind_pure, observe_of_none h c hdoc]
    exact .of_same (fun _ => rfl) rfl
  | setGrammar d' g =>
    obtain rfl := Option.some.inj hsubject
    rw [Deed.perform, changeGrammar, setGrammar_of_none h c hdoc]
    exact .of_same (fun _ => rfl) rfl
  | enable d' previous l =>
    obtain rfl := Option.some.inj hsubject
    rw [Deed.perform, snd_bind_pure, enable_of_none h c hdoc]
    exact .of_same (fun _ => rfl) rfl
  | disable d' =>
    obtain rfl := Option.some.inj hsubject
    rw [Deed.perform, snd_bind_pure, disable_of_none h c hdoc]
    exact .of_same (fun _ => rfl) rfl
  | edit d' t => exact .of_lasting rfl (Since.setText d' t e (.refl Lasting e d'))
  | load d' => exact .of_lasting rfl (Since.load d' e (.refl Lasting e d'))
  | save d' =>
    obtain rfl := Option.some.inj hsubject
    rw [Deed.perform, save, Action.bind_apply, document_of_none hdoc]
    exact .of_same (fun _ => rfl) rfl
  | destroy d' => exact absurd (congrArg Deed.destroy (Option.some.inj hsubject)) hdestroy

/-- What a deed does to names and to notifications. -/
theorem recorded_perform (hc : Coherent (fun _ => True) bases (fun _ => True) e) {deed : Deed σ}
    (hdestroy : ∀ d, deed ≠ .destroy d) : Recorded h deed e (deed.perform h c e).2 := by
  have hs := Coherent.steady (h := h) hc
  -- from here on the subject exists, since otherwise nothing happens
  by_cases hmissing : ∃ d, deed.subject = some d ∧ e.documents[d]? = none
  · obtain ⟨d, hsubject, hdoc⟩ := hmissing
    exact recorded_of_none hsubject (hdestroy d) hdoc
  have hexists {d : Nat} (hsubject : deed.subject = some d) : ∃ doc, e.Holds d doc :=
    Option.ne_none_iff_exists'.mp fun hnone => hmissing ⟨d, hsubject, hnone⟩
  -- the paths are those of the present state, with which the account starts
  have hkept {d n : Nat} (hn : bases[d]? = some (.file n)) (observers : List Observer) :=
    kept_accounted h c (fun n => h.files.path n e.host) hfiles hh hn e observers e.documentOf
  have hstart {d n : Nat} {doc : Document κ} (hdoc : e.Holds d doc) :
      Accounted h bases (fun n => h.files.path n e.host) d doc.grammarObservers.callbacks
        e.documentOf (h.files.path n e.host) e e :=
    ⟨hs.at hdoc, Or.inl (Since.refl Lasting e d)⟩
  cases deed with
  | observe d =>
    obtain ⟨doc, hdoc⟩ := hexists rfl
    rw [Deed.perform, snd_bind_pure]
    exact recorded_observe hfiles hh hs hdoc
  | unobserve n => exact recorded_unobserve h n e
  | setGrammar d g =>
    obtain ⟨doc, hdoc⟩ := hexists rfl
    obtain ⟨n, hn⟩ := hs.exists_file hfiles hdoc
    exact .of_accounted rfl hn ((hkept hn _).setGrammar maxNesting g e (hstart hdoc))
  | enable d previous l =>
    obtain ⟨doc, hdoc⟩ := hexists rfl
    obtain ⟨n, hn⟩ := hs.exists_file hfiles hdoc
    have hk := hkept hn doc.grammarObservers.callbacks
    rw [Deed.perform, snd_bind_pure]
    exact .of_accounted rfl hn (hk.enable (hk.setGrammar maxNesting) previous l e (hstart hdoc))
  | disable d =>
    obtain ⟨doc, hdoc⟩ := hexists rfl
    obtain ⟨n, hn⟩ := hs.exists_file hfiles hdoc
    rw [Deed.perform, snd_bind_pure]
    exact .of_accounted rfl hn ((hkept hn _).disable e (hstart hdoc))
  | edit d t => exact .of_lasting rfl (Since.setText d t e (.refl Lasting e d))
  | load d => exact .of_lasting rfl (Since.load d e (.refl Lasting e d))
  | save d =>
    obtain ⟨doc, hdoc⟩ := hexists rfl
    obtain ⟨n, hn⟩ := hs.exists_file hfiles hdoc
    have hstands := hs.placed d doc hdoc
    refine recorded_save (n := n) hdoc ?_
    -- a document that is mapped is saved under the name of its handle, and any other one silently
    cases hlenient : e.isLenient d with
    | false => exact Or.inl (hstands.own _ hn trivial hlenient)
    | true => exact Or.inr (hstands.mapped _ hn trivial hlenient)
  | destroy d => exact absurd rfl (hdestroy d)
  | elsewhere f => exact .of_same (fun _ => rfl) rfl

end Deeds

end Editor

end Dialects

import Dialects.Proofs.Editor.Bookkeeping
import Dialects.Proofs.Editor.Mapping
import Dialects.Proofs.Editor.Reports
import Dialects.Proofs.Storage.Directory

/-!
# Under which name

Notifications refer to documents by names. A document goes by the path of its file, but a mapped
handle keeps the name that the document had when it was mapped, and what is reported about a save,
or dismissed by one, is so under that name (`called`). Where files are renamed the two may differ.

## Main definitions

* `filed` and `called`: the path of a document's file, and the name of the document;
* `NotificationCentre.Gained`: what has been added to a list of notifications;
* `Since`: which handles documents have, and what has been added, since an earlier moment.

## Main results

* `Since.turnLenient`: a document is mapped under its path, and its failures are reported under it;
* `save_mapped`: a document is saved under the name that its handle keeps.
-/

namespace Dialects

/-! ## What has been added to a list of notifications -/

namespace NotificationCentre

variable {P Q : String → Option String → Prop} {c c₁ c₂ : NotificationCentre}

/-- The second list comes from the first one by dismissing notifications and by adding some, whose
categories and sources are related by `P`. -/
structure Gained (P : String → Option String → Prop) (c c' : NotificationCentre) : Prop where
  count : c.count ≤ c'.count
  items : ∀ x' ∈ c'.items,
    (∃ x ∈ c.items, x.id = x'.id ∧ x.category = x'.category ∧ x.source = x'.source) ∨
      (c.count ≤ x'.id ∧ x'.id < c'.count ∧ P x'.category x'.source)

namespace Gained

theorem refl (P : String → Option String → Prop) (c : NotificationCentre) : Gained P c c :=
  ⟨Nat.le_refl _, fun x hx => Or.inl ⟨x, hx, rfl, rfl, rfl⟩⟩

theorem trans (h₁ : Gained P c c₁) (h₂ : Gained P c₁ c₂) : Gained P c c₂ := by
  refine ⟨Nat.le_trans h₁.count h₂.count, fun x₂ hx₂ => ?_⟩
  obtain ⟨x₁, hx₁, hid, hcategory, hsource⟩ | ⟨hlow, hhigh, hP⟩ := h₂.items x₂ hx₂
  · obtain ⟨x, hx, hid', hcategory', hsource'⟩ | ⟨hlow, hhigh, hP⟩ := h₁.items x₁ hx₁
    · exact Or.inl ⟨x, hx, hid'.trans hid, hcategory'.trans hcategory, hsource'.trans hsource⟩
    · rw [hid] at hlow hhigh
      rw [hcategory, hsource] at hP
      exact Or.inr ⟨hlow, Nat.lt_of_lt_of_le hhigh h₂.count, hP⟩
  · exact Or.inr ⟨Nat.le_trans h₁.count hlow, hhigh, hP⟩

/-- What may have been gained may be described more broadly. -/
theorem mono (h : Gained P c c₁) (hPQ : ∀ category source, P category source → Q category source) :
    Gained Q c c₁ :=
  ⟨h.count, fun x hx => (h.items x hx).imp id fun hnew => ⟨hnew.1, hnew.2.1, hPQ _ _ hnew.2.2⟩⟩

/-- A report is gained if its category and its source are related. -/
theorem report {category : String} {source : Option String} (hP : P category source) (f : Failure)
    (c : NotificationCentre) : Gained P c (c.report category f source) := by
  refine ⟨Nat.le_succ _, fun x hx => ?_⟩
  rcases List.mem_append.mp hx with hold | hnew
  · exact Or.inl ⟨x, hold, rfl, rfl, rfl⟩
  · obtain rfl := List.mem_singleton.mp hnew
    exact Or.inr ⟨Nat.le_refl _, Nat.lt_succ_self _, hP⟩

/-- Nothing is added by dismissing. -/
theorem dismissWhere (P : String → Option String → Prop) (p : Notification → Bool)
    (c : NotificationCentre) : Gained P c (c.dismissWhere p) := by
  refine ⟨Nat.le_refl _, fun x' hx' => ?_⟩
  obtain ⟨x, hx, rfl⟩ := List.mem_map.mp hx'
  refine Or.inl ⟨x, hx, ?_⟩
  split <;> exact ⟨rfl, rfl, rfl⟩

end Gained

/-- What is visible after stale notifications have been dismissed are the visible ones that are not
stale. -/
theorem mem_visible_dismissStale {source : Option String} {x : Notification} :
    x ∈ (c.dismissStale source).visible ↔ x ∈ c.visible ∧ x.isStale source = false :=
  mem_visible_dismissWhere

end NotificationCentre

/-! ## Names of documents -/

namespace Editor

open Dialects.Action Streams

variable {σ κ α : Type} {h : Host σ κ} {c : ControllerSettings} {e₀ e e' : Editor σ κ} {d d' : Nat}
  {doc : Document κ}

/-- The handle of a document, if there is such a document and it has one. -/
def handleOf (e : Editor σ κ) (d : Nat) : Option (Handle (Binding κ)) :=
  e.documents[d]?.bind Document.handle

/-- The path of a document's file. -/
def filed (h : Host σ κ) (e : Editor σ κ) (d : Nat) : Option String :=
  (e.handleOf d).map fun handle => h.files.path handle.base e.host

/-- The name under which saves of a document are reported, and notifications about it dismissed: the
one that it had when it was mapped, or else the path of its file. -/
def called (h : Host σ κ) (e : Editor σ κ) (d : Nat) : Option String :=
  -- A mapped handle is never told that its file has been renamed.
  (e.handleOf d).map fun
    | .mapped _ b => b.source
    | handle => h.files.path handle.base e.host

/-- The handle of a document that is there. -/
theorem handleOf_eq (hdoc : e.Holds d doc) : e.handleOf d = doc.handle := by
  rw [handleOf, show e.documents[d]? = some doc from hdoc]
  rfl

/-- A change of a document that leaves its handle alone leaves all handles alone. -/
theorem handleOf_modify {f : Document κ → Document κ} (hf : ∀ doc, (f doc).handle = doc.handle)
    (d d' : Nat) (e : Editor σ κ) : (modify d f e).2.handleOf d' = e.handleOf d' := by
  rw [handleOf, handleOf, modify, change_apply, List.getElem?_modify]
  cases e.documents[d']? with
  | none => rfl
  | some doc =>
    show (if d = d' then f doc else doc).handle = doc.handle
    split
    · exact hf doc
    · rfl

/-- A document that is replaced by one with its handle leaves all handles as they are. -/
theorem handleOf_put {doc' : Document κ} (hdoc : e.Holds d doc) (hhandle : doc'.handle = doc.handle)
    (d' : Nat) : (e.put d doc').handleOf d' = e.handleOf d' := by
  by_cases hd : d' = d
  · subst hd
    rw [handleOf_eq (hdoc.put doc'), handleOf_eq hdoc, hhandle]
  · rw [handleOf, handleOf, Editor.put, List.getElem?_set_ne (Ne.symm hd)]

/-- If the handle is a mapped one, it keeps this name. -/
def Bears (p : String) (handle : Option (Handle (Binding κ))) : Prop :=
  ∀ inner b, handle = some (.mapped inner b) → b.source = p

/-- Notifications that a save makes stale are reported under this name. -/
def Under (p : String) (category : String) (source : Option String) : Prop :=
  category ∈ Notification.staleOnSave → source = some p

/-- A document that bears the path of its file as its name is called so. -/
theorem called_eq_filed (hbears : ∀ p, filed h e d = some p → Bears p (e.handleOf d)) :
    called h e d = filed h e d := by
  rw [filed] at hbears
  rw [called, filed]
  cases hhandle : e.handleOf d with
  | none => rfl
  | some handle =>
    rw [hhandle] at hbears
    -- only a mapped handle has a name that need not be the path
    cases handle with
    | file n | forwarding inner => rfl
    | mapped inner b => exact congrArg some (hbears _ rfl inner b rfl)

/-- A document that was called by its path is so as long as it keeps its handle and its path. -/
theorem called_of_handle (hsame : e'.handleOf d = e.handleOf d) (hfiled : filed h e' d = filed h e d)
    (hcalled : called h e d = filed h e d) : called h e' d = filed h e' d := by
  rw [hfiled, ← hcalled]
  rw [filed, filed, hsame] at hfiled
  rw [called, called, hsame]
  -- a mapped handle keeps its name, and any other one has the path as its name
  cases hhandle : e.handleOf d with
  | none => rfl
  | some handle =>
    rw [hhandle] at hfiled
    cases handle with
    | file n | forwarding inner => exact hfiled
    | mapped inner b => rfl

/-! ## What is done to one document -/

/-- Since the first editor, no document but `d` has got a new handle; the handle of `d` satisfies
`B`, and the notifications that have been added satisfy `P`. -/
structure Since (P : String → Option String → Prop) (B : Option (Handle (Binding κ)) → Prop)
    (e₀ : Editor σ κ) (d : Nat) (e : Editor σ κ) : Prop where
  others : ∀ d' ≠ d, e.handleOf d' = e₀.handleOf d'
  own : B (e.handleOf d)
  gained : e₀.notifications.Gained P e.notifications

namespace Since

variable {P P' : String → Option String → Prop} {B B' : Option (Handle (Binding κ)) → Prop}

theorem refl (P : String → Option String → Prop) (e : Editor σ κ) (d : Nat) :
    Since P (· = e.handleOf d) e d e :=
  ⟨fun _ _ => rfl, rfl, .refl P _⟩

/-- What is said of the reports and of the handle may be weakened. -/
theorem imp (hs : Since P B e₀ d e) (hP : ∀ category source, P category source → P' category source)
    (hB : B (e.handleOf d) → B' (e.handleOf d)) : Since P' B' e₀ d e :=
  ⟨hs.others, hB hs.own, hs.gained.mono hP⟩

/-- Nothing has happened since where handles and notifications are the same. -/
theorem of_same (hs : Since P B e₀ d e) (hhandles : ∀ d', e'.handleOf d' = e.handleOf d')
    (hsame : e'.notifications = e.notifications) : Since P B e₀ d e' := by
  refine ⟨fun d' hd => (hhandles d').trans (hs.others d' hd), ?_, ?_⟩
  · rw [hhandles d]
    exact hs.own
  · rw [hsame]
    exact hs.gained

/-- Only the host has been at work, and nothing has been reported. -/
theorem within {a : Action (Editor σ κ) α} (ha : Within (fun _ => True) a) (hsilent : Silent a) :
    Preserves (Since P B e₀ d) a := fun e hs =>
  hs.of_same (fun d' => by rw [handleOf, (ha e).documents, handleOf]) (hsilent.eq e)

theorem outside (a : Action σ α) :
    Preserves (Since P B e₀ d) (outside a : Action (Editor σ κ) α) :=
  within (Confined.outside fun _ _ => trivial).within (Silent.outside a)

theorem document (d' : Nat) :
    Preserves (Since P B e₀ d) (document d' : Action (Editor σ κ) (Document κ)) :=
  within (within_document d') (Silent.document d')

/-- A change that leaves handles alone makes no difference to them and to notifications. -/
theorem modify {f : Document κ → Document κ} (hf : ∀ doc, (f doc).handle = doc.handle) (d' : Nat) :
    Preserves (Since P B e₀ d) (modify d' f) := fun e hs =>
  hs.of_same (handleOf_modify hf d' · e) rfl

/-- The document may get a new handle of the sort that is asked for. -/
theorem setHandle {handle : Option (Handle (Binding κ))} (hB : B handle) :
    Preserves (Since P B e₀ d) (setHandle d handle) := by
  intro e hs
  refine ⟨fun d' hd => ?_, ?_, hs.gained⟩
  · rw [← hs.others d' hd, handleOf, handleOf, Editor.setHandle, Editor.modify, change_apply,
      List.getElem?_modify_ne _ _ (Ne.symm hd)]
  · -- the document may be missing, and then it has no handle before and afterwards
    have hown := hs.own
    rw [handleOf] at hown ⊢
    rw [Editor.setHandle, Editor.modify, change_apply, List.getElem?_modify_eq]
    cases hdoc : e.documents[d]? with
    | none =>
      rw [hdoc] at hown
      exact hown
    | some doc => exact hB

/-- A report is one more notification of the sort that is asked for. -/
theorem report {category source : String} (hP : P category (some source)) (f : Failure) :
    Preserves (Since P B e₀ d) (report category source f : Action (Editor σ κ) Unit) :=
  fun _ hs => ⟨hs.others, hs.own, hs.gained.trans (.report hP f _)⟩

theorem track (l : String) : Preserves (Since P B e₀ d) (track d l : Action (Editor σ κ) Unit) :=
  fun _ hs => hs.of_same (fun _ => rfl) rfl

theorem untrack : Preserves (Since P B e₀ d) (untrack d : Action (Editor σ κ) Unit) :=
  fun _ hs => hs.of_same (fun _ => rfl) rfl

theorem isModified (d' : Nat) : Preserves (Since P B e₀ d) (isModified h d') :=
  (outside (h.checkModified d')).bind fun _ => (document d').bind fun _ => Preserves.pure _

theorem setText (d' : Nat) (t : Text) : Preserves (Since P B e₀ d) (setText h d' t) := by
  refine (outside (h.checkEdit d')).bind fun _ => modify (fun doc => ?_) d'
  split <;> rfl

theorem load (d' : Nat) : Preserves (Since P B e₀ d) (load h d') := by
  refine (outside (h.checkLoad d')).bind fun _ => (document d').bind fun doc => ?_
  cases doc.handle with
  | none => exact Preserves.pure _
  | some handle =>
    refine (within (confined_read h.respects_true handle).within (.read handle)).bind fun _ => ?_
    refine modify ?_ d'
    exact fun _ => rfl

/-- Converting a text adds no notifications but those for a failure. -/
theorem transcode (set : κ) (direction : Direction)
    {onError : Failure → Action (Editor σ κ) Unit}
    (honError : ∀ f, Preserves (Since P B e₀ d) (onError f)) (d' : Nat) :
    Preserves (Since P B e₀ d) (transcode h d' set direction onError) := by
  have hget : Preserves (Since P B e₀ d)
      (Document.text <$> Editor.document d' : Action (Editor σ κ) Text) := by
    rw [map_eq_pure_bind]
    exact (document d').bind fun doc => Preserves.pure doc.text
  -- what is done when the conversion fails may report under the name, and nothing else
  refine Preserves.bind (hget.bind fun t => ?_) fun _ => modify ?_ d'
  · refine (outside (h.convert set direction t)).attempt.bind fun r => ?_
    cases r with
    | error f => exact (honError f).bind fun _ => Preserves.throw f
    | ok t => exact setText d' t
  · exact fun _ => rfl

theorem restoreText (d' : Nat) (l : String) (modified backed : Bool) :
    Preserves (Since P B e₀ d) (restoreText h c d' l modified backed) := by
  rw [Editor.restoreText]
  split
  · exact (outside (h.converters l)).bind fun set =>
      transcode set .toCanonical (fun _ => Preserves.pure ()) d'
  · split
    · exact load d'
    · exact Preserves.pure ()

/-- That a document cannot be restored is none of what a save makes stale. -/
theorem disable (p : String) :
    Preserves (Since (Under p) (fun _ => True) e₀ d) (disable h c d) := by
  -- nothing is said about the handle here: what it is follows from that the document is canonical
  refine (Preserves.ask _).bind fun tracked => ?_
  cases tracked.lookup d with
  | none => exact Preserves.pure _
  | some l =>
    refine untrack.bind fun _ => (document d).bind fun doc => (Preserves.ask _).bind fun source => ?_
    refine (isModified d).bind fun modified => (setHandle trivial).bind fun _ => ?_
    refine (Preserves.ask _).bind fun backed => ?_
    refine (restoreText d l modified backed).attempt.bind fun r => ?_
    cases r with
    | ok => exact Preserves.pure _
    | error f =>
      refine (report ?_ f).bind fun _ => Preserves.pure _
      intro hstale
      exact absurd hstale (by decide)

/-- While a text is shown, everything is reported under the given name. -/
theorem showText {p : String} {old : Option (Handle (Binding κ))} (hold : Bears p old) (l : String)
    (set : κ) (backed modified convert : Bool) :
    Preserves (Since (Under p) (Bears p) e₀ d)
      (showText h c d l set p old backed modified convert) := by
  have hreport (f : Failure) : Preserves (Since (Under p) (Bears p) e₀ d)
      (Editor.report Notification.toLenientCategory p f : Action (Editor σ κ) Unit) :=
    report (fun _ => rfl) f
  have hconversion : Preserves (Since (Under p) (Bears p) e₀ d) (if modified && convert then
      Editor.transcode h d set .toLenient (Editor.report Notification.toLenientCategory p)
    else pure ()) := by
    split
    · exact transcode set .toLenient hreport d
    · exact Preserves.pure ()
  have hreload : Preserves (Since (Under p) (Bears p) e₀ d)
      (if backed && !modified && c.reload then Editor.load h d else pure ()) := by
    split
    · exact load d
    · exact Preserves.pure ()
  refine hconversion.attempt.bind fun r => ?_
  cases r with
  -- the old handle is put back when the text cannot be converted
  | error f => exact (setHandle hold).bind fun _ => Preserves.pure _
  | ok =>
    refine (track l).bind fun _ => hreload.attempt.bind fun r => ?_
    cases r with
    | ok => exact Preserves.pure _
    | error f =>
      -- and again when it cannot be loaded, which is reported before
      exact (hreport f).bind fun _ => untrack.bind fun _ => (setHandle hold).bind fun _ =>
        Preserves.pure _

/-- A document that is turned lenient is mapped under its present name, and whatever goes wrong is
reported under this name. -/
theorem turnLenient {p : String} (hs : Since (Under p) (Bears p) e₀ d e) (hdoc : e.Holds d doc)
    (hsource : sourceOf h e d doc = p) (previous : Option Grammar) (l : String) :
    Since (Under p) (Bears p) e₀ d (turnLenient h c d previous l e).2 := by
  have hold : Bears p doc.handle := handleOf_eq hdoc ▸ hs.own
  -- the name was asked for before anything else was done, and the new handle keeps it
  have hnew (set : κ) : Bears p (doc.handle.map (.mapped · ⟨set, p⟩)) := by
    intro inner b hmapped
    obtain ⟨handle, -, hmapped⟩ := Option.map_eq_some_iff.mp hmapped
    obtain ⟨-, rfl⟩ := Handle.mapped.inj hmapped
    rfl
  have hlook : Preserves (Since (Under p) (Bears p) e₀ d) (lookUp h l) :=
    within (within_lookUp h.respects_true l) (Silent.lookUp l)
  rw [Editor.turnLenient, Action.bind_apply, document_apply hdoc]
  simp only [Action.bind_apply (Action.ask _), Action.ask_apply, hsource]
  refine hlook.attempt.bind (fun r => ?_) e hs
  cases r with
  | error f =>
    dsimp only
    split
    · exact (report (fun _ => rfl) f).bind fun _ => Preserves.pure _
    · exact Preserves.throw f
  | ok set =>
    refine (Preserves.ask _).bind fun backed => (isModified d).bind fun modified => ?_
    have hshow : Preserves (Since (Under p) (Bears p) e₀ d)
        (Editor.showText h c d l set p doc.handle backed modified previous.isSome) :=
      showText hold l set backed modified previous.isSome
    cases backed with
    | false => exact hshow
    | true => exact (setHandle (hnew set)).bind fun _ => hshow

end Since

/-! ## Saving -/

/-- Saving leaves all handles alone. -/
theorem handleOf_save (h : Host σ κ) (d d' : Nat) (e : Editor σ κ) :
    (save h d e).2.handleOf d' = e.handleOf d' := by
  -- everything but the last step leaves the documents alone
  have hwithin {α : Type} {a : Action (Editor σ κ) α} (ha : Within (fun _ => True) a) :
      Preserves (fun e' => e'.handleOf d' = e.handleOf d') a := by
    intro e' he'
    rw [handleOf, (ha e').documents]
    exact he'
  refine Preserves.bind (hwithin (within_document d)) (fun doc => ?_) e rfl
  cases doc.handle with
  | none => exact Preserves.throw _
  | some handle =>
    refine (hwithin (confined_store h.respects_true handle [doc.text]).within).bind fun _ => ?_
    -- the last step says that the document is saved, and touches no handle
    intro e' he'
    refine (handleOf_modify ?_ d d' e').trans he'
    exact fun _ => rfl

/-- Nothing is reported while a file is written. -/
theorem Silent.store_file (n : Nat) (t : Text) :
    Silent (((Handle.file n).sink (files h) (mapping h)).store [t]) := by
  rw [store_singleton]
  exact (Silent.outside _).bind fun _ => (Silent.outside _).bind fun _ => Silent.outside _

/-- Saving a document that is no mapped one reports nothing. -/
theorem save_file {n : Nat} (hdoc : e.Holds d doc) (hhandle : doc.handle = some (.file n)) :
    (save h d e).2.notifications = e.notifications := by
  rw [save, Action.bind_apply, document_apply hdoc]
  simp only [hhandle]
  exact ((Silent.store_file n doc.text).bind fun _ => Silent.modify d _).eq e

/-- Saving a mapped document reports that its text cannot be converted under the name that its
handle keeps, and if all goes well dismisses what has become stale under this name. -/
theorem save_mapped {n : Nat} {b : Binding κ} (hdoc : e.Holds d doc)
    (hhandle : doc.handle = some (.mapped (.file n) b)) :
    (∃ e', save h d e = (.ok (), e') ∧
      e'.notifications = e.notifications.dismissStale (some b.source)) ∨
    ∃ f e', save h d e = (.error f, e') ∧ (e'.notifications = e.notifications ∨
      ∃ g, e'.notifications = e.notifications.report Notification.saveCategory g (some b.source)) := by
  have hconvert : Silent ((mapping h).convert b .toCanonical doc.text) := Silent.outside _
  have hsame := hconvert.eq e
  rw [save, Action.bind_apply, document_apply hdoc]
  simp only [hhandle]
  rw [Action.bind_apply, store_mapped, Action.bind_apply, Action.attempt_apply]
  -- the text is converted before anything is written, so that a failure is reported at once
  rcases hr : (mapping h).convert b .toCanonical doc.text e with ⟨f | t, e₁⟩
  · rw [hr] at hsame
    exact Or.inr ⟨_, _, rfl, Or.inr ⟨f, congrArg (NotificationCentre.report · _ f _) hsame⟩⟩
  · rw [hr] at hsame
    have hstored := (Silent.store_file (h := h) n t).eq e₁
    simp only [Action.bind_apply]
    -- a failure to write is not reported by the handle
    rcases hr₂ : ((Handle.file n).sink (files h) (mapping h)).store [t] e₁ with ⟨f | _, e₂⟩
    · rw [hr₂] at hstored
      exact Or.inr ⟨f, e₂, rfl, Or.inl (hstored.trans hsame)⟩
    · rw [hr₂] at hstored
      exact Or.inl ⟨_, rfl, congrArg (NotificationCentre.dismissStale · _) (hstored.trans hsame)⟩

end Editor

end Dialects

import Dialects.Proofs.Editor.Confined

/-!
# What the operations on a document do

Every operation on a document first deals with the host alone and then, unless that fails, changes
this one document. The lemmas `load_cases`, `save_cases`, `setText_cases` and `transcode_cases` say
so and what becomes of the document; whoever uses an operation needs nothing else about it.
-/

namespace Dialects.Editor

variable {σ κ : Type} {I : σ → Prop} {e e' : Editor σ κ} {d : Nat} {doc doc' : Document κ}

/-- The editor with another document in place of one. -/
def put (e : Editor σ κ) (d : Nat) (doc : Document κ) : Editor σ κ :=
  { e with documents := e.documents.set d doc }

/-- The documents are numbered and the document of this number is the given one. -/
def Holds (e : Editor σ κ) (d : Nat) (doc : Document κ) : Prop := e.documents[d]? = some doc

theorem Holds.unique (h : e.Holds d doc) (h' : e.Holds d doc') : doc = doc' :=
  Option.some.inj (h.symm.trans h')

/-- A document that is put in its place is there. -/
theorem Holds.put (h : e.Holds d doc) (doc' : Document κ) : (e.put d doc').Holds d doc' := by
  obtain ⟨hlt, -⟩ := List.getElem?_eq_some_iff.mp h
  exact List.getElem?_set_self hlt

/-- What only the host does leaves a document as it is. -/
theorem HostOnly.holds (h : HostOnly I e e') (hdoc : e.Holds d doc) : e'.Holds d doc := by
  rw [Holds, h.documents]
  exact hdoc

/-- A document that is put in twice is the last one. -/
@[simp]
theorem put_put (e : Editor σ κ) (d : Nat) (doc doc' : Document κ) :
    (e.put d doc).put d doc' = e.put d doc' := by
  simp only [put, List.set_set]

/-- Putting a document in its own place changes nothing. -/
theorem Holds.put_self (h : e.Holds d doc) : e.put d doc = e := by
  obtain ⟨hlt, rfl⟩ := List.getElem?_eq_some_iff.mp h
  rw [Editor.put, List.set_getElem_self]

/-- A document that is there is given. -/
theorem document_apply (h : e.Holds d doc) : document d e = (.ok doc, e) := by
  rw [document, Action.bind_apply, Action.ask_apply]
  simp only [show e.documents[d]? = some doc from h]
  rfl

/-- The text of a document that is there is given. -/
theorem text_apply (h : e.Holds d doc) :
    (Document.text <$> document d : Action (Editor σ κ) Text) e = (.ok doc.text, e) := by
  rw [map_eq_pure_bind, Action.bind_apply, document_apply h]
  rfl

/-- Changing a document puts another one in its place. -/
theorem modify_apply (h : e.Holds d doc) (f : Document κ → Document κ) :
    modify d f e = (.ok (), e.put d (f doc)) := by
  obtain ⟨hlt, hget⟩ := List.getElem?_eq_some_iff.mp h
  have hset : e.documents.modify d f = e.documents.set d (f doc) := by
    refine List.ext_getElem? fun i => ?_
    by_cases hi : d = i
    · subst hi
      rw [List.getElem?_modify_eq, h, List.getElem?_set_self hlt]
      rfl
    · rw [List.getElem?_modify_ne _ _ hi, List.getElem?_set_ne hi]
  rw [modify, Action.change_apply, put, hset]

/-- The document has a mapped handle. -/
def IsMapped (doc : Document κ) : Prop := ∃ handle, doc.handle = some handle ∧ handle.isMapped = true

/-- A confined action fails with the host or gives a result. -/
theorem Confined.cases {α : Type} {a : Action (Editor σ κ) α} (h : Confined I a)
    (e : Editor σ κ) : ∃ e', HostOnly I e e' ∧
      ((∃ f, a e = (.error f, e') ∧ e'.faults ≠ []) ∨ ∃ x, a e = (.ok x, e')) := by
  have hwithin := h.within e
  have hloud := h.loud e
  rcases hr : a e with ⟨r, e'⟩
  rw [hr] at hwithin hloud
  refine ⟨e', hwithin, ?_⟩
  cases r with
  | error f => exact Or.inl ⟨f, rfl, hloud f rfl⟩
  | ok x => exact Or.inr ⟨x, rfl⟩

/-- The result of an operation: the host has failed, which went on record, or the document has been
replaced. -/
def Done (I : σ → Prop) (e : Editor σ κ) (d : Nat) (r : Except Failure Unit × Editor σ κ)
    (P : Document κ → Prop) : Prop :=
  ∃ e', HostOnly I e e' ∧ ((∃ f, r = (.error f, e') ∧ e'.faults ≠ []) ∨
    ∃ doc', r = (.ok (), e'.put d doc') ∧ P doc')

section Operations

variable {h : Host σ κ} (hI : h.Respects I) (hdoc : e.Holds d doc)

include hI hdoc

/-- Loading replaces the text by what the handle reads, if there is a handle. -/
theorem load_cases : Done I e d (load h d e) fun doc' =>
    (doc.handle = none ∧ doc' = doc) ∨ ∃ handle t, doc.handle = some handle ∧
      doc' = { doc with text := t, dialect := handle.dialect, modified := false } := by
  obtain ⟨e₁, hfirst, ⟨f, hr, hfault⟩ | ⟨⟨⟩, hr⟩⟩ :=
    (Confined.outside (hI.checkLoad d)).cases e
  · refine ⟨e₁, hfirst, Or.inl ⟨f, ?_, hfault⟩⟩
    rw [load, Action.bind_apply, hr]
  have hdoc₁ := hfirst.holds hdoc
  -- without a handle there is nothing to load, and this is no failure
  obtain hhandle | ⟨handle, hhandle⟩ := Option.eq_none_or_eq_some doc.handle
  · refine ⟨e₁, hfirst, Or.inr ⟨doc, ?_, Or.inl ⟨hhandle, rfl⟩⟩⟩
    rw [load, Action.bind_apply, hr]
    simp only [Action.bind_apply, document_apply hdoc₁, hhandle, hdoc₁.put_self]
    rfl
  · have hload : load h d e = ((handle.read (files h) (mapping h) >>= fun chunks =>
        modify d fun doc =>
          { doc with text := chunks.flatten, dialect := handle.dialect, modified := false }) e₁) := by
      rw [load, Action.bind_apply, hr]
      simp only [Action.bind_apply (document d), document_apply hdoc₁, hhandle]
    obtain ⟨e₂, hsecond, ⟨f, hr₂, hfault⟩ | ⟨chunks, hr₂⟩⟩ :=
      (confined_read hI handle).cases e₁
    · refine ⟨e₂, hfirst.trans hsecond, Or.inl ⟨f, ?_, hfault⟩⟩
      rw [hload, Action.bind_apply, hr₂]
    · refine ⟨e₂, hfirst.trans hsecond, Or.inr ⟨_, ?_, Or.inr ⟨handle, chunks.flatten, hhandle, rfl⟩⟩⟩
      rw [hload, Action.bind_apply, hr₂]
      exact modify_apply (hsecond.holds hdoc₁) _

/-- Saving changes nothing about the document but that it is no longer modified. -/
theorem save_cases {handle : Handle (Binding κ)} (hhandle : doc.handle = some handle) :
    Done I e d (save h d e) fun doc' => doc' = { doc with modified := false } := by
  have hsave : save h d e = (((handle.sink (files h) (mapping h)).store [doc.text] >>= fun _ =>
      modify d fun doc => { doc with modified := false }) e) := by
    rw [save, Action.bind_apply, document_apply hdoc]
    simp only [hhandle]
  obtain ⟨e₁, hfirst, ⟨f, hr, hfault⟩ | ⟨⟨⟩, hr⟩⟩ := (confined_store hI handle [doc.text]).cases e
  · refine ⟨e₁, hfirst, Or.inl ⟨f, ?_, hfault⟩⟩
    rw [hsave, Action.bind_apply, hr]
  · refine ⟨e₁, hfirst, Or.inr ⟨_, ?_, rfl⟩⟩
    rw [hsave, Action.bind_apply, hr]
    exact modify_apply (hfirst.holds hdoc) _

/-- Setting a text modifies the document if the text is another one. -/
theorem setText_cases (t : Text) : Done I e d (setText h d t e) fun doc' =>
    doc' = if doc.text = t then doc else { doc with text := t, modified := true } := by
  obtain ⟨e₁, hfirst, ⟨f, hr, hfault⟩ | ⟨⟨⟩, hr⟩⟩ :=
    (Confined.outside (hI.checkEdit d)).cases e
  · refine ⟨e₁, hfirst, Or.inl ⟨f, ?_, hfault⟩⟩
    rw [setText, Action.bind_apply, hr]
  · refine ⟨e₁, hfirst, Or.inr ⟨_, ?_, rfl⟩⟩
    rw [setText, Action.bind_apply, hr]
    exact modify_apply (hfirst.holds hdoc) _

omit hI in
/-- A text that has been converted is set. -/
theorem transcode_of_ok {set : κ} {direction : Direction} {t : Text} {e₁ : Editor σ κ}
    (hr : (outside (h.convert set direction doc.text) : Action (Editor σ κ) Text) e = (.ok t, e₁))
    (onError : Failure → Action (Editor σ κ) Unit) :
    transcode h d set direction onError e = (setText h d t >>= fun _ =>
      modify d fun doc => { doc with dialect := direction.target }) e₁ := by
  rw [transcode, Action.bind_apply, Streams.transcode, Action.bind_apply, text_apply hdoc]
  simp only [Action.bind_apply, Action.attempt_apply, hr]

omit hI in
/-- That a text could not be converted is told to `onError`. -/
theorem transcode_of_error {set : κ} {direction : Direction} {f : Failure} {e₁ : Editor σ κ}
    (hr : (outside (h.convert set direction doc.text) : Action (Editor σ κ) Text) e = (.error f, e₁))
    (onError : Failure → Action (Editor σ κ) Unit) :
    transcode h d set direction onError e = (onError f >>= fun _ => throw f) e₁ := by
  rw [transcode, Action.bind_apply, Streams.transcode, Action.bind_apply, text_apply hdoc]
  simp only [Action.bind_apply, Action.attempt_apply, hr]
  rcases onError f e₁ with ⟨_ | _, e₂⟩ <;> rfl

/-- Converting a text in place replaces it by a text of the other dialect. -/
theorem transcode_cases (set : κ) (direction : Direction)
    {onError : Failure → Action (Editor σ κ) Unit} (honError : ∀ f, Within I (onError f)) :
    Done I e d (transcode h d set direction onError e) fun doc' =>
      ∃ t, doc' =
        { doc with
          text := t
          dialect := direction.target
          modified := doc.modified || decide (doc.text ≠ t) } := by
  obtain ⟨e₁, hfirst, ⟨f, hr, hfault⟩ | ⟨t, hr⟩⟩ :=
    (Confined.outside (hI.convert set direction doc.text)).cases e
  · -- The failure is told to `onError`, which cannot take it off the record.
    have hwithin := honError f e₁
    have hfailed : ∃ g, transcode h d set direction onError e = (.error g, (onError f e₁).2) := by
      rw [transcode_of_error hdoc hr, Action.bind_apply]
      rcases onError f e₁ with ⟨_ | _, e₂⟩
      · exact ⟨_, rfl⟩
      · exact ⟨_, rfl⟩
    obtain ⟨g, hg⟩ := hfailed
    exact ⟨_, hfirst.trans hwithin, Or.inl ⟨g, hg, hwithin.toFrame.faults_ne_nil hfault⟩⟩
  · have hconverted := transcode_of_ok hdoc hr onError
    obtain ⟨e₂, hsecond, ⟨f, hr₂, hfault⟩ | ⟨doc₂, hr₂, rfl⟩⟩ :=
      setText_cases hI (hfirst.holds hdoc) t
    · refine ⟨e₂, hfirst.trans hsecond, Or.inl ⟨f, ?_, hfault⟩⟩
      rw [hconverted, Action.bind_apply, hr₂]
    · have hdoc₂ := (hsecond.holds (hfirst.holds hdoc)).put
        (if doc.text = t then doc else { doc with text := t, modified := true })
      refine ⟨e₂, hfirst.trans hsecond, Or.inr ⟨_, ?_, t, rfl⟩⟩
      rw [hconverted, Action.bind_apply, hr₂]
      simp only [modify_apply hdoc₂, put_put]
      by_cases ht : doc.text = t
      · simp [ht]
      · simp [ht]

end Operations

end Dialects.Editor

import Dialects.Proofs.Editor.Attendance

/-!
# A workspace at work

Documents are opened and closed, their grammars are set, they are edited, loaded and saved, while
the lenient mode is switched on and off. Any of this may fail. As long as the workspace is not shut
down, the controller follows the open documents through one observation each while the mode is on,
and none while it is off, so that everything stays in order (`Tended.perform`).

## Main definitions

* `Workspace.Deed`: what may happen in a workspace, and `Workspace.workOn`, the workspace after it;
* `Tended`: a workspace in order.

## Main results

* `Tended.workOn`: a workspace is in order after any run.
-/

namespace Dialects.Workspace

open Dialects.Action Dialects.Editor

variable {σ κ : Type} {I : σ → Prop} {h : OpeningHost σ κ} {c : ControllerSettings}
  {w : Workspace σ κ} {d : Nat}

/-! ## Deeds and runs -/

/-- What may happen in a workspace that is not shut down. -/
inductive Deed (σ : Type) where
  /-- A document is opened. -/
  | openDocument (path : Option String) (grammar : Option Grammar) (text : Text)
  /-- A document is closed. -/
  | close (d : Nat)
  /-- A document ends without being closed. -/
  | destroy (d : Nat)
  /-- The lenient mode is switched on. -/
  | activate
  /-- The lenient mode is switched off. -/
  | deactivate
  /-- A listener begins to hear of documents that are opened. -/
  | welcome (id : Nat) (name : String)
  /-- A listener no longer hears of documents that are opened. -/
  | dismiss (id : Nat) (name : String)
  /-- The grammar of a document is set. -/
  | setGrammar (d : Nat) (g : Grammar)
  /-- The user replaces the text of a document. -/
  | edit (d : Nat) (t : Text)
  /-- A document is loaded. -/
  | load (d : Nat)
  /-- A document is saved. -/
  | save (d : Nat)
  /-- A listener begins to follow the grammar of a document. -/
  | listenGrammar (d id : Nat) (name : String)
  /-- A listener begins to follow the end of a document. -/
  | listenEnd (d id : Nat) (name : String)
  /-- A listener no longer follows a document. -/
  | unlisten (d id : Nat) (name : String)
  /-- Notifications are dismissed. -/
  | notify (f : NotificationCentre → NotificationCentre)
  /-- A listener is told of something else. -/
  | mark (name : String) (t : Told)
  /-- Something is done outside the editor, and may fail: files are changed or renamed, or what will
  fail is. -/
  | elsewhere (a : Action σ Unit)

/-- Carries out a deed. -/
def Deed.perform (h : OpeningHost σ κ) (c : ControllerSettings) :
    Deed σ → Action (Workspace σ κ) Unit
  | .openDocument path grammar text => do
    let _ ← Workspace.openDocument h c path grammar text
  | .close d => Workspace.close d
  | .destroy d => inEditor (endDocument d)
  | .activate => Workspace.activate h c
  | .deactivate => Workspace.deactivate h c
  | .welcome id name => Workspace.welcome h c (.listener id name)
  | .dismiss id name => Workspace.dismiss (.listener id name)
  | .setGrammar d g => inEditor (changeGrammar h.toHost c d g)
  | .edit d t => inEditor (setText h.toHost d t)
  | .load d => inEditor (Editor.load h.toHost d)
  | .save d => inEditor (Editor.save h.toHost d)
  | .listenGrammar d id name => inEditor (Editor.listenGrammar d id name)
  | .listenEnd d id name => inEditor (Editor.listenEnd d id name)
  | .unlisten d id name => inEditor (Editor.unlisten d id name)
  | .notify f => inEditor (Editor.notify f)
  | .mark name t => inEditor (Editor.mark name t)
  | .elsewhere a => inEditor (Editor.outside a)

/-- The workspace after some deeds. A deed that fails ends there, and the next one follows. -/
def workOn (h : OpeningHost σ κ) (c : ControllerSettings) (w : Workspace σ κ)
    (deeds : List (Deed σ)) : Workspace σ κ :=
  deeds.foldl (fun w deed => (deed.perform h c w).2) w

/-! ## A workspace in order -/

/-- Everything is in order in a workspace that is not shut down: the open documents are different
ones, and the controller hears of documents that are opened at most once, and only while the lenient
mode is on. -/
structure Tended (I : σ → Prop) (c : ControllerSettings) (w : Workspace σ κ) : Prop where
  orderly : Orderly I c w.lenient w.opened w.editor.documents.length w.editor
  exist : ∀ d ∈ w.opened, d < w.editor.documents.length
  different : w.opened.Nodup
  guests : w.guests.callbacks.count .controller ≤ if w.lenient then 1 else 0
  closing : w.closing = false

/-- The controller may begin to follow the document. -/
structure Ready (d : Nat) (w : Workspace σ κ) : Prop where
  free : w.editor.tracked.lookup d = none
  alone : ∀ doc n, w.editor.Holds d doc → .controller n ∉ doc.grammarObservers.callbacks

/-- What keeps order may be done in the editor of a workspace that is looked after. -/
theorem Tended.inEditor {α : Type} {a : Action (Editor σ κ) α}
    (ha : ∀ active opened N, Preserves (Orderly I c active opened N) a) :
    Preserves (Tended I c) (inEditor a) := by
  intro w ht
  have ho := ha _ _ _ w.editor ht.orderly
  refine ⟨?_, fun d hd => ?_, ht.different, ht.guests, ht.closing⟩
  · show Orderly I c w.lenient w.opened (a w.editor).2.documents.length (a w.editor).2
    rw [ho.count]
    exact ho
  · show d < (a w.editor).2.documents.length
    rw [ho.count]
    exact ht.exist d hd

/-- A document is ready as long as nothing moves. -/
theorem Ready.unmoved {w' : Workspace σ κ} (hr : Ready d w) (hu : Unmoved w.editor w'.editor) :
    Ready d w' := by
  refine ⟨?_, fun doc' n hdoc' hn => ?_⟩
  · rw [hu.tracked]
    exact hr.free
  · obtain ⟨doc, hdoc, -, -, hobservers⟩ := hu.documents d doc' hdoc'
    exact hr.alone doc n hdoc ((hobservers n).mp hn)

/-- A document that may be followed stays so while something happens to the editor that has nothing
to do with the dialects of documents. -/
theorem Ready.inEditor {α : Type} {a : Action (Editor σ κ) α}
    (ha : ∀ e, Preserves (Unmoved e) a) : Preserves (Ready d) (inEditor a) :=
  fun w hr => hr.unmoved (ha w.editor w.editor (.refl w.editor))

/-! ## Opening and closing -/

/-- A document that is closed is no longer among those that are open. -/
theorem Tended.close (h : OpeningHost σ κ) (d : Nat) :
    Preserves (Tended I c) (close d : Action (Workspace σ κ) Unit) := by
  intro w ht
  obtain ⟨e', he'⟩ : ∃ e', e' = (endDocument d w.editor).2 := ⟨_, rfl⟩
  have ho := ht.orderly.endDocument h.toHost d
  rw [← he'] at ho
  have hsub {d' : Nat} (hd' : d' ∈ w.opened.erase d) : d' ∈ w.opened := List.mem_of_mem_erase hd'
  have hother {d' : Nat} (hd' : d' ∈ w.opened) (hne : d' ≠ d) : d' ∈ w.opened.erase d :=
    (List.mem_erase_of_ne hne).mpr hd'
  have hclosed {doc : Document κ} (hdoc : e'.Holds d doc) : doc.closed = true := by
    cases hdoc₀ : w.editor.documents[d]? with
    | none =>
      have hlt := ho.lt hdoc
      rw [List.getElem?_eq_none_iff] at hdoc₀
      omega
    | some doc₀ =>
      rw [he'] at hdoc
      exact (closed_endDocument ht.orderly.toSteady hdoc₀).closed doc hdoc
  -- a document that is followed and is not closed is another one
  have hsteady : Steady I w.editor.documents.length (Tidy w.lenient (w.opened.erase d)) e' := by
    refine ho.toSteady.imp fun d' doc t hdoc hplaced => ⟨hplaced.single, hplaced.active,
      hplaced.ended, fun n hn hopen => ?_, hplaced.bare, hplaced.mapped⟩
    refine hother (hplaced.opened n hn hopen) ?_
    rintro rfl
    rw [hclosed hdoc] at hopen
    contradiction
  show Tended I c { w with opened := w.opened.erase d, editor := (endDocument d w.editor).2 }
  rw [← he']
  refine ⟨?_, fun d' hd' => ?_, ht.different.erase d, ht.guests, ht.closing⟩
  · show Orderly I c w.lenient (w.opened.erase d) e'.documents.length e'
    rw [ho.count]
    exact ⟨hsteady, ho.tuned, ho.idle⟩
  · show d' < e'.documents.length
    rw [ho.count]
    exact ht.exist d' (hsub hd')

/-- The document is a new one that nobody follows, and counts among those that are not open yet. -/
structure Pending (I : σ → Prop) (c : ControllerSettings) (d : Nat) (w : Workspace σ κ) :
    Prop extends Tended I c w, Ready d w where
  known : d < w.editor.documents.length
  apart : d ∉ w.opened

/-- What keeps order and moves nothing may be done while a document waits to be announced. -/
theorem Pending.inEditor {α : Type} {a : Action (Editor σ κ) α}
    (ha : ∀ active opened N, Preserves (Orderly I c active opened N) a)
    (hunmoved : ∀ e, Preserves (Unmoved e) a) : Preserves (Pending I c d) (inEditor a) := by
  intro w hp
  have hu := hunmoved w.editor w.editor (.refl w.editor)
  refine ⟨Tended.inEditor ha w hp.toTended, Ready.inEditor hunmoved w hp.toReady, ?_, hp.apart⟩
  show d < (a w.editor).2.documents.length
  rw [hu.count]
  exact hp.known

/-- A new document has no followers. -/
theorem Tended.pending (ht : Tended I c w) {doc : Document κ}
    (hfree : ∀ x, x ∉ doc.grammarObservers.callbacks) (hend : ∀ x, x ∉ doc.endObservers.callbacks)
    (hbare : IsBare doc.handle) :
    Pending I c w.editor.documents.length
      { w with editor := { w.editor with documents := w.editor.documents ++ [doc] } } := by
  have hlength : (w.editor.documents ++ [doc]).length = w.editor.documents.length + 1 :=
    List.length_append
  have hnone : w.editor.isLenient w.editor.documents.length = false := by
    cases hlenient : w.editor.isLenient w.editor.documents.length with
    | false => rfl
    | true => exact absurd (ht.orderly.tuned.known _ hlenient) (Nat.lt_irrefl _)
  have hlast {doc' : Document κ}
      (hdoc' : (w.editor.documents ++ [doc])[w.editor.documents.length]? = some doc') :
      doc' = doc := by
    rw [List.getElem?_concat_length] at hdoc'
    exact (Option.some.inj hdoc').symm
  -- whatever counts as lenient was there before
  have hold {d : Nat} {doc' : Document κ} (hd : w.editor.isLenient d = true)
      (hdoc' : (w.editor.documents ++ [doc])[d]? = some doc') : w.editor.Holds d doc' := by
    rw [List.getElem?_append_left (ht.orderly.tuned.known d hd)] at hdoc'
    exact hdoc'
  have hplaced : Tidy w.lenient w.opened w.editor.documents.length doc false :=
    ⟨countP_eq_zero (fun n => hfree _) ▸ Nat.zero_le 1, fun n hn => absurd hn (hfree _),
      fun n => (List.count_eq_zero_of_not_mem (hend _)).symm ▸ Nat.zero_le _,
      fun n hn => absurd hn (hfree _), fun _ _ => hbare, fun _ => hbare.unmapped⟩
  have hsteady := ht.orderly.toSteady.append (fun n => hfree _) (hnone ▸ hplaced)
  refine ⟨⟨?_, fun d hd => ?_, ht.different, ht.guests, ht.closing⟩,
    ⟨lookup_of_isLenient hnone, fun doc' n hdoc' => hlast hdoc' ▸ hfree _⟩, ?_, fun hmem => ?_⟩
  · show Orderly I c w.lenient w.opened (w.editor.documents ++ [doc]).length _
    rw [hlength]
    refine ⟨hsteady, ⟨fun d hd => ?_, fun d doc' hdoc' hclosed hd => ?_,
      fun d doc' l hdoc' hclosed hl => ?_⟩, ht.orderly.idle⟩
    · exact hlength ▸ Nat.lt_succ_of_lt (ht.orderly.tuned.known d hd)
    · exact ht.orderly.tuned.attended d doc' (hold hd hdoc') hclosed hd
    · exact ht.orderly.tuned.matching d doc' l (hold (isLenient_of_lookup hl) hdoc') hclosed hl
  · exact hlength ▸ Nat.lt_succ_of_lt (ht.exist d hd)
  · exact hlength ▸ Nat.lt_succ_self _
  · exact absurd (ht.exist _ hmem) (Nat.lt_irrefl _)

/-- From then on the document is open. -/
theorem Pending.opened (hp : Pending I c d w) :
    Tended I c { w with opened := w.opened ++ [d] } := by
  refine ⟨⟨hp.orderly.toSteady.imp fun d' doc t _ hplaced => ⟨hplaced.single, hplaced.active,
    hplaced.ended, fun n hn hopen => List.mem_append_left _ (hplaced.opened n hn hopen),
    hplaced.bare, hplaced.mapped⟩, hp.orderly.tuned, hp.orderly.idle⟩, fun d' hd' => ?_, ?_,
    hp.guests, hp.closing⟩
  · -- any document that was open exists, and so does the new one
    obtain hmem | hlast := List.mem_append.mp hd'
    · exact hp.exist d' hmem
    · rw [List.mem_singleton.mp hlast]
      exact hp.known
  · -- the new document has not been open before
    refine List.nodup_append.mpr ⟨hp.different, List.pairwise_singleton _ d, fun a ha b hb => ?_⟩
    rintro rfl
    rw [List.mem_singleton.mp hb] at ha
    exact hp.apart ha

/-- A listener only leaves a mark. -/
theorem Tended.listener (h : OpeningHost σ κ) (d id : Nat) (name : String) :
    Preserves (Tended I c) (introduce h c d (.listener id name)) :=
  Tended.inEditor fun _ _ _ => Orderly.mark name (.document d)

/-- Introducing a listener leaves a document ready. -/
theorem Ready.listener (h : OpeningHost σ κ) (c : ControllerSettings) (d' id : Nat)
    (name : String) : Preserves (Ready d) (introduce h c d' (.listener id name)) :=
  Ready.inEditor fun _ => unmoved_mark name _

/-- Listeners come and go. -/
theorem Tended.guests_of_count (ht : Tended I c w) {guests : Emitter Guest}
    (hcount : guests.callbacks.count .controller ≤ if w.lenient then 1 else 0) :
    Tended I c { w with guests := guests } :=
  ⟨ht.orderly, ht.exist, ht.different, hcount, ht.closing⟩

/-- Opening a file that may not be there keeps what opening files keeps. -/
theorem preserves_openFile (hopen : ∀ p s, I s → I (h.openFile p s).2) (path : Option String) :
    Preserves I (path.mapM h.openFile : Action σ (Option Nat)) := by
  cases path with
  | none => exact fun s hs => hs
  | some p =>
    have hp : Preserves I (h.openFile p) := hopen p
    rw [Option.mapM_some, map_eq_pure_bind]
    exact hp.bind fun n => Preserves.pure (some n)

/-- Opening a document keeps whatever is kept if a new document is added, then by reading it, when
something else may hold of the new document, and then by counting it as open and introducing it. -/
theorem preserves_openDocument {P : Workspace σ κ → Prop} {Q : Nat → Workspace σ κ → Prop}
    {path : Option String} {grammar : Option Grammar} {text : Text}
    (hfile : Preserves P (inEditor (outside (path.mapM h.openFile))))
    (hadd : ∀ w (doc : Document κ), P w → (∀ x, x ∉ doc.grammarObservers.callbacks) →
      (∀ x, x ∉ doc.endObservers.callbacks) → IsBare doc.handle →
      Q w.editor.documents.length
        { w with editor := { w.editor with documents := w.editor.documents ++ [doc] } })
    (hpresence : ∀ d n, Preserves (Q d) (inEditor (outside (h.isPresent n))))
    (hload : ∀ d, Preserves (Q d) (inEditor (Editor.load h.toHost d)))
    (hset : ∀ d, Preserves (Q d) (inEditor (Editor.setText h.toHost d text)))
    (hannounced : ∀ d w, Q d w → P w ∧ P ((do
      Action.change fun w => { w with opened := w.opened ++ [d] }
      (← Action.ask Workspace.guests).callbacks.forM (introduce h c d)
      return d : Action (Workspace σ κ) Nat) w).2) :
    Preserves P (openDocument h c path grammar text) := by
  refine hfile.bind fun file => fun w hw => ?_
  obtain ⟨doc, hdoc⟩ : ∃ doc : Document κ,
      doc = newDocument (grammar.getD (.forPath path)) (file.map .file) := ⟨_, rfl⟩
  have hbare : IsBare doc.handle := by
    rintro inner hinner
    rw [hdoc] at hinner
    obtain ⟨n, -, rfl⟩ := Option.map_eq_some_iff.mp hinner
    exact ⟨n, rfl⟩
  have hadded := hadd w doc hw (by simp [hdoc, newDocument, Emitter.empty])
    (by simp [hdoc, newDocument, Emitter.empty]) hbare
  rw [Action.bind_apply, Action.ask_apply]
  simp only [← hdoc]
  -- from here on nothing matters about the new document but that the invariant admits it
  generalize w.editor.documents.length = d at hadded ⊢
  have hnew : Workspace.inEditor (.change fun e => { e with documents := e.documents ++ [doc] }) w
      = (.ok (), { w with editor := { w.editor with documents := w.editor.documents ++ [doc] } }) :=
    rfl
  rw [Action.bind_of_ok hnew]
  generalize { w with editor := { w.editor with documents := w.editor.documents ++ [doc] } } = w₁
    at hadded ⊢
  have himp (w₂ : Workspace σ κ) (hq : Q d w₂) : P w₂ := (hannounced d w₂ hq).1
  -- without a file the document has the given text, with a file what is there, or the given text
  cases file with
  | none =>
    simp only [pure_bind, Bool.false_eq_true, if_false]
    split
    · exact Preserves.bind_imp (hset d) himp (fun _ w₂ hq => (hannounced d w₂ hq).2) w₁ hadded
    · exact (hannounced d w₁ hadded).2
  | some n =>
    refine Preserves.bind_imp (hpresence d n) himp (fun present w₂ hq => ?_) w₁ hadded
    split
    · exact Preserves.bind_imp (hload d) himp (fun _ w₃ hq => (hannounced d w₃ hq).2) w₂ hq
    split
    · exact Preserves.bind_imp (hset d) himp (fun _ w₃ hq => (hannounced d w₃ hq).2) w₂ hq
    · exact (hannounced d w₂ hq).2

section Deeds

variable (hI : h.toHost.Respects I)
  (hmodified : ∀ d s, I s → (h.checkModified d s).1 = .ok ())

include hI hmodified

/-- The controller begins to follow an open document that it does not follow. The other ones are
left alone. -/
theorem Tended.introduce (ht : Tended I c w) (hlenient : w.lenient = true) (hd : d ∈ w.opened)
    (hr : Ready d w) :
    Tended I c (introduce h c d .controller w).2 ∧
      ∀ d' ≠ d, Ready d' w → Ready d' (Workspace.introduce h c d .controller w).2 := by
  have ho := ht.orderly
  rw [hlenient] at ho
  have ho' := ho.observe hI hmodified hd hr.free hr.alone
  have haround := (ho.tuned.observe (h := h.toHost) d hr.free).2
  obtain ⟨e', he'⟩ : ∃ e', e' = (observe h.toHost c d w.editor).2 := ⟨_, rfl⟩
  -- that the first look fails changes nothing about the workspace but its editor
  have hlast : (Workspace.introduce h c d .controller w).2 = { w with editor := e' } := by
    rw [Workspace.introduce, he', Action.bind_apply, Workspace.inEditor, Action.on_apply]
    rcases observe h.toHost c d w.editor with ⟨_ | _, _⟩ <;> rfl
  rw [← he'] at ho' haround
  rw [hlast]
  refine ⟨⟨?_, fun d' hd' => ?_, ht.different, ht.guests, ht.closing⟩, fun d' hne hr' => ⟨?_, ?_⟩⟩
  · show Orderly I c w.lenient w.opened e'.documents.length e'
    rw [hlenient, ho'.count]
    exact ho'
  · show d' < e'.documents.length
    rw [haround.count]
    exact ht.exist d' hd'
  · exact (haround.tracked d' hne).trans hr'.free
  · intro doc n hdoc
    rw [Holds, show e'.documents[d']? = _ from haround.documents d' hne] at hdoc
    exact hr'.alone doc n hdoc

/-- A document that has just been opened is introduced to all guests. -/
theorem Tended.introduce_all (gs : List Guest) (ht : Tended I c w)
    (honce : gs.count .controller ≤ 1)
    (hcontroller : .controller ∈ gs → w.lenient = true ∧ d ∈ w.opened ∧ Ready d w) :
    Tended I c (gs.forM (Workspace.introduce h c d) w).2 := by
  induction gs generalizing w with
  | nil => exact ht
  | cons g gs ih =>
    show Tended I c ((Workspace.introduce h c d g >>= fun _ => gs.forM _) w).2
    rw [Action.bind_apply]
    cases g with
    | controller =>
      obtain ⟨hlenient, hd, hr⟩ := hcontroller List.mem_cons_self
      have hfirst := (ht.introduce hI hmodified hlenient hd hr).1
      -- the others are listeners
      rw [List.count_cons_self] at honce
      have hlast : .controller ∉ gs := List.count_eq_zero.mp (by omega)
      rcases hstep : Workspace.introduce h c d .controller w with ⟨f | ⟨⟩, w'⟩
      · rw [hstep] at hfirst
        exact hfirst
      · rw [hstep] at hfirst
        exact ih hfirst (by omega) fun hmem => absurd hmem hlast
    | listener id name =>
      have hfirst := Tended.listener h d id name w ht
      obtain ⟨e', hstep⟩ : ∃ e', Workspace.introduce h c d (.listener id name) w
          = (.ok (), { w with editor := e' }) := ⟨_, rfl⟩
      rw [hstep] at hfirst ⊢
      refine ih hfirst (by simpa using honce) fun hmem => ?_
      obtain ⟨hlenient, hd, hr⟩ := hcontroller (List.mem_cons_of_mem _ hmem)
      have hr' := Ready.listener h c d id name w hr
      rw [hstep] at hr'
      exact ⟨hlenient, hd, hr'⟩

/-- A document that has been read is counted as open and introduced. -/
theorem Pending.announced (hp : Pending I c d w) : Tended I c ((do
    Action.change fun w => { w with opened := w.opened ++ [d] }
    (← Action.ask Workspace.guests).callbacks.forM (Workspace.introduce h c d)
    return d : Action (Workspace σ κ) Nat) w).2 := by
  -- the controller is a guest only while the lenient mode is on
  have hlenient (hmem : .controller ∈ w.guests.callbacks) : w.lenient = true := by
    cases hoff : w.lenient with
    | true => rfl
    | false =>
      have hcount := hp.guests
      rw [hoff] at hcount
      exact absurd hmem (List.count_eq_zero.mp (Nat.le_zero.mp hcount))
  have hr : Ready d { w with opened := w.opened ++ [d] } := ⟨hp.free, hp.alone⟩
  have hall := Tended.introduce_all hI hmodified w.guests.callbacks hp.opened
    (Nat.le_trans hp.guests (by split <;> omega)) fun hmem =>
      ⟨hlenient hmem, List.mem_append_right _ List.mem_cons_self, hr⟩
  rw [Action.bind_apply, Action.change_apply]
  simp only [Action.bind_apply, Action.ask_apply]
  rcases hr : w.guests.callbacks.forM (Workspace.introduce h c d)
    { w with opened := w.opened ++ [d] } with ⟨f | ⟨⟩, w'⟩
  · rw [hr] at hall
    exact hall
  · rw [hr] at hall
    exact hall

variable (hopen : ∀ p s, I s → I (h.openFile p s).2)
  (hpresent : ∀ n s, I s → I (h.isPresent n s).2)

include hopen hpresent

/-- A document is opened, read and introduced; a failure to read it ends this before the document is
counted as open. -/
theorem Tended.openDocument (path : Option String) (grammar : Option Grammar) (text : Text) :
    Preserves (Tended I c) (openDocument h c path grammar text) := by
  have hfile := preserves_openFile hopen path
  -- the document is pending while it is read, whatever comes of that
  refine preserves_openDocument (Q := Pending I c) ?_ (fun w doc ht hfree hend hbare =>
    ht.pending hfree hend hbare) (fun d n => ?_) (fun d => ?_) (fun d => ?_) fun d w hp =>
      ⟨hp.toTended, hp.announced hI hmodified⟩
  · exact Tended.inEditor fun _ _ _ => Orderly.within (Confined.outside hfile).within
  · exact Pending.inEditor (fun _ _ _ => Orderly.within (Confined.outside (hpresent n)).within)
      fun _ => unmoved_within (Confined.outside (hpresent n)).within
  · exact Pending.inEditor (fun _ _ _ => Orderly.load hI d) fun _ => unmoved_load h.toHost d
  · exact Pending.inEditor (fun _ _ _ => Orderly.setText hI d text)
      fun _ => unmoved_setText h.toHost d text

omit hopen hpresent

/-! ## The lenient mode -/

omit hI hmodified in
/-- A listener is told of all documents that are open. -/
theorem Tended.welcome (h : OpeningHost σ κ) (id : Nat) (name : String) :
    Preserves (Tended I c) (welcome h c (.listener id name)) := by
  refine (Preserves.ask _).bind fun ds => Preserves.bind
    (Preserves.forM fun d _ => Tended.listener h d id name) fun _ w ht => ?_
  refine ht.guests_of_count ?_
  rw [Emitter.callbacks_subscribe, List.count_append]
  exact ht.guests

omit hI hmodified in
/-- A workspace that is looked after stays so when a guest leaves. -/
theorem Tended.dismiss (id : Nat) (name : String) :
    Preserves (Tended I c) (dismiss (.listener id name) : Action (Workspace σ κ) Unit) := by
  refine fun w ht => ht.guests_of_count ?_
  rw [Emitter.callbacks_unsubscribe, List.count_erase_of_ne (by simp)]
  exact ht.guests

/-- The controller is told of open documents none of which it follows. -/
theorem Tended.introduce_each (ds : List Nat) (hds : ds.Nodup) (ht : Tended I c w)
    (hlenient : w.lenient = true) (hfree : w.guests.callbacks.count .controller = 0)
    (hopened : ∀ d ∈ ds, d ∈ w.opened ∧ Ready d w) :
    Tended I c (ds.forM (fun d => Workspace.introduce h c d .controller) w).2 ∧
      (ds.forM (fun d => Workspace.introduce h c d .controller) w).2.guests = w.guests ∧
      (ds.forM (fun d => Workspace.introduce h c d .controller) w).2.lenient = true := by
  induction ds generalizing w with
  | nil => exact ⟨ht, rfl, hlenient⟩
  | cons d ds ih =>
    obtain ⟨hd, hds'⟩ := List.nodup_cons.mp hds
    obtain ⟨⟨hmem, hr⟩, hrest⟩ := List.forall_mem_cons.mp hopened
    have hfirst := ht.introduce hI hmodified hlenient hmem hr
    have hsame : ∃ e', (Workspace.introduce h c d .controller w).2 = { w with editor := e' } := by
      rw [Workspace.introduce, Action.bind_apply, Workspace.inEditor, Action.on_apply]
      rcases observe h.toHost c d w.editor with ⟨_ | _, e'⟩ <;> exact ⟨e', rfl⟩
    show Tended I c ((Workspace.introduce h c d .controller >>= fun _ => ds.forM _) w).2 ∧
      ((Workspace.introduce h c d .controller >>= fun _ => ds.forM _) w).2.guests = _ ∧
      ((Workspace.introduce h c d .controller >>= fun _ => ds.forM _) w).2.lenient = _
    rw [Action.bind_apply]
    rcases hstep : Workspace.introduce h c d .controller w with ⟨f | ⟨⟩, w'⟩
    · -- the documents after it are not followed, which is in order
      rw [hstep] at hfirst hsame
      obtain ⟨e', rfl⟩ := hsame
      exact ⟨hfirst.1, rfl, hlenient⟩
    · rw [hstep] at hfirst hsame
      obtain ⟨e', rfl⟩ := hsame
      refine ih hds' hfirst.1 hlenient hfree fun d' hd' => ?_
      obtain ⟨hmem', hr'⟩ := hrest d' hd'
      refine ⟨hmem', hfirst.2 d' ?_ hr'⟩
      rintro rfl
      exact hd hd'

omit hI hmodified in
/-- While the lenient mode is off, the controller may begin to follow any document. -/
theorem Tended.activated (ht : Tended I c w) (hoff : w.lenient = false) :
    Tended I c { w with lenient := true } ∧ w.guests.callbacks.count .controller = 0 ∧
      ∀ d, Ready d w := by
  have ho := ht.orderly
  rw [hoff] at ho
  refine ⟨⟨⟨ho.toSteady.imp fun d doc t _ hplaced => ⟨hplaced.single, fun _ _ => rfl, hplaced.ended,
    hplaced.opened, hplaced.bare, hplaced.mapped⟩, ho.tuned, fun hfalse => absurd hfalse (by simp)⟩,
    ht.exist, ht.different, ?_, ht.closing⟩, ?_, fun d => ⟨?_, fun doc n hdoc hn => ?_⟩⟩
  · exact Nat.le_trans ht.guests (by split <;> simp)
  · -- there is no controller among the guests while the mode is off
    have hcount := ht.guests
    rw [hoff] at hcount
    exact Nat.le_zero.mp hcount
  · rw [ho.idle rfl]
    rfl
  · -- a document that is followed would have to be followed by an active controller
    have hfalse := (ho.placed d doc hdoc).active n hn
    contradiction

/-- Turning the lenient mode on leaves a workspace looked after. -/
theorem Tended.activate : Preserves (Tended I c) (activate h c) := by
  intro w ht
  rw [Workspace.activate, Action.bind_apply, Action.ask_apply]
  simp only []
  split
  · exact ht
  next hoff =>
  obtain ⟨ht', hcount, hready⟩ := ht.activated (by simpa using hoff)
  have hall := Tended.introduce_each hI hmodified w.opened ht.different ht' rfl hcount
    fun d hd => ⟨hd, ⟨(hready d).free, (hready d).alone⟩⟩
  rw [Action.bind_apply, Action.change_apply]
  simp only [Workspace.welcome, Action.bind_apply, Action.ask_apply]
  rcases hr : w.opened.forM (fun d => Workspace.introduce h c d .controller)
    { w with lenient := true } with ⟨f | ⟨⟩, w'⟩
  · -- the mode is on, but the controller will not hear of documents that are opened
    rw [hr] at hall
    exact hall.1
  · rw [hr] at hall
    obtain ⟨ht'', hguests, hlenient⟩ := hall
    refine ht''.guests_of_count ?_
    rw [Emitter.callbacks_subscribe, List.count_append, hguests, hlenient, hcount]
    exact Nat.le_refl 1

/-- Switching the lenient mode off succeeds, whatever fails. -/
theorem Tended.deactivate (ht : Tended I c w) (hon : w.lenient = true) :
    ∃ e', Editor.deactivate h.toHost c false w.editor = (.ok (), e') ∧
      Workspace.deactivate h c w = (.ok (), { w with
        editor := e'
        guests := w.guests.unsubscribe .controller
        lenient := false }) ∧
      Tended I c { w with
        editor := e'
        guests := w.guests.unsubscribe .controller
        lenient := false } := by
  obtain ⟨e', hr, ho⟩ := ht.orderly.deactivate (c := c) hI hmodified
  refine ⟨e', hr, ?_, ?_⟩
  · rw [Workspace.deactivate, Action.bind_apply, Action.ask_apply]
    simp only [hon, if_true, Workspace.dismiss, Workspace.inEditor, Action.bind_apply,
      Action.change_apply, Action.ask_apply, Action.on_apply, ht.closing, hr]
  · refine ⟨?_, fun d hd => ?_, ht.different, ?_, ht.closing⟩
    · show Orderly I c false w.opened e'.documents.length e'
      rw [ho.count]
      exact ho
    · show d < e'.documents.length
      rw [ho.count]
      exact ht.exist d hd
    · -- the controller has been a guest once at most, and is none now
      have hcount := ht.guests
      rw [hon] at hcount
      rw [Emitter.callbacks_unsubscribe, List.count_erase_self]
      exact Nat.sub_le_of_le_add hcount

/-! ## Runs -/

include hopen hpresent

/-- Every deed keeps a workspace in order. -/
theorem Tended.perform {deed : Deed σ}
    (helsewhere : ∀ a, deed = .elsewhere a → ∀ s, I s → I (a s).2) :
    Preserves (Tended I c) (deed.perform h c) := by
  cases deed with
  | openDocument path grammar text =>
    exact (Tended.openDocument hI hmodified hopen hpresent path grammar text).bind fun _ =>
      Preserves.pure _
  | close d => exact Tended.close h d
  | destroy d => exact Tended.inEditor fun _ _ _ => Orderly.endDocument h.toHost d
  | activate => exact Tended.activate hI hmodified
  | deactivate =>
    intro w ht
    cases hon : w.lenient with
    | true =>
      obtain ⟨e', -, hr, ht'⟩ := ht.deactivate hI hmodified hon
      show Tended I c (Workspace.deactivate h c w).2
      rw [hr]
      exact ht'
    | false =>
      show Tended I c (Workspace.deactivate h c w).2
      -- nothing is done while the mode is off
      rw [Workspace.deactivate, Action.bind_apply, Action.ask_apply]
      simp only [hon]
      exact ht
  | welcome id name => exact Tended.welcome h id name
  | dismiss id name => exact Tended.dismiss id name
  | setGrammar d g => exact Tended.inEditor fun _ _ _ => Orderly.changeGrammar hI hmodified d g
  | edit d t => exact Tended.inEditor fun _ _ _ => Orderly.setText hI d t
  | load d => exact Tended.inEditor fun _ _ _ => Orderly.load hI d
  | save d => exact Tended.inEditor fun _ _ _ => Orderly.save hI d
  | listenGrammar d id name => exact Tended.inEditor fun _ _ _ => Orderly.listenGrammar d id name
  | listenEnd d id name => exact Tended.inEditor fun _ _ _ => Orderly.listenEnd d id name
  | unlisten d id name => exact Tended.inEditor fun _ _ _ => Orderly.unlisten d id name
  | notify f => exact Tended.inEditor fun _ _ _ => Orderly.within (Within.notify f)
  | mark name t => exact Tended.inEditor fun _ _ _ => Orderly.mark name t
  | elsewhere a =>
    exact Tended.inEditor fun _ _ _ =>
      Orderly.within (Confined.outside (helsewhere a rfl)).within

/-- A workspace is in order after any run. -/
theorem Tended.workOn {deeds : List (Deed σ)}
    (helsewhere : ∀ a, .elsewhere a ∈ deeds → ∀ s, I s → I (a s).2) (ht : Tended I c w) :
    Tended I c (workOn h c w deeds) := by
  induction deeds generalizing w with
  | nil => exact ht
  | cons deed deeds ih =>
    refine ih (fun a ha => helsewhere a (List.mem_cons_of_mem _ ha))
      (Tended.perform hI hmodified hopen hpresent ?_ w ht)
    rintro a rfl
    exact helsewhere a List.mem_cons_self

end Deeds

/-- At the start there are no documents. -/
theorem tended_fresh {s : σ} (hs : I s) : Tended I c (fresh s : Workspace σ κ) :=
  ⟨⟨⟨hs, rfl, nofun, nofun⟩, ⟨nofun, nofun, nofun⟩, fun _ => rfl⟩, nofun, List.nodup_nil,
    Nat.le_refl 0, rfl⟩

end Dialects.Workspace

import Dialects.Proofs.Editor.Workspace

/-!
# Every open document is followed

While the lenient mode is on, the controller follows every open document that has not ended: those
that are open when the mode is switched on, and those that are opened later, since it is then among
those who hear of them. All it takes is that no first look at a document fails, which is so if the
host is not erratic.

## Main definitions

* `Heeded`: the document is followed unless it has ended;
* `Covering`: a workspace in order, all documents of which are followed.

## Main results

* `Covering.workOn`: every open document is followed after any run.
-/

namespace Dialects.Workspace

open Dialects.Action Dialects.Editor

variable {σ κ : Type} {I : σ → Prop} {h : OpeningHost σ κ} {c : ControllerSettings}
  {w : Workspace σ κ} {e e' : Editor σ κ} {d : Nat} {doc : Document κ} {active : Bool}
  {opened : List Nat} {N : Nat}

/-! ## One document -/

/-- The controller follows the document, unless it has ended. -/
def Heeded (d : Nat) (e : Editor σ κ) : Prop :=
  ∀ doc, e.Holds d doc → doc.closed = false → ∃ n, .controller n ∈ doc.grammarObservers.callbacks

/-- A document is heeded as long as nothing moves. -/
theorem Heeded.unmoved (hd : Heeded d e) (hu : Unmoved e e') : Heeded d e' := by
  intro doc' hdoc' hopen
  obtain ⟨doc, hdoc, -, hclosed, hobservers⟩ := hu.documents d doc' hdoc'
  obtain ⟨n, hn⟩ := hd doc hdoc (hclosed.symm.trans hopen)
  exact ⟨n, (hobservers n).mpr hn⟩

/-- Something has happened to another document. -/
theorem Heeded.around {d' : Nat} (hd : Heeded d e) (ha : Around d' e e') (hne : d ≠ d') :
    Heeded d e' :=
  fun doc hdoc => hd doc ((ha.documents d hne).symm.trans hdoc)

/-- A change of grammar leaves all observers where they are. -/
theorem Heeded.changeGrammar (hd : Heeded d e) (hs : Steady I N (Tidy active opened) e)
    (d' : Nat) (g : Grammar) : Heeded d (changeGrammar h.toHost c d' g e).2 := by
  cases hdoc : e.documents[d']? with
  | none =>
    rw [Editor.changeGrammar, maxNesting, setGrammar, Action.bind_apply, document_of_none hdoc]
    exact hd
  | some doc =>
    have ha : Attended e d' doc (Editor.changeGrammar h.toHost c d' g e).2 :=
      (kept_attended h.toHost c e d' doc).setGrammar maxNesting g e
        ⟨.refl d' e, ⟨doc, hdoc, rfl, rfl⟩, fun n hn => hs.attached d' doc n hdoc hn⟩
    by_cases hne : d = d'
    · subst hne
      -- whatever the controller does, the document keeps its observers
      obtain ⟨doc', hdoc', hobservers, hclosed⟩ := ha.holds
      intro doc₁ hdoc₁ hopen
      obtain rfl := hdoc'.unique hdoc₁
      rw [hobservers]
      exact hd doc hdoc (hclosed.symm.trans hopen)
    · exact hd.around ha.toAround hne

/-- A document is no longer followed when it ends, and no other one is concerned. -/
theorem Heeded.endDocument (hd : Heeded d e) (hs : Steady I N (Tidy active opened) e) (d' : Nat) :
    Heeded d (endDocument d' e).2 := by
  cases hdoc : e.documents[d']? with
  | none =>
    rw [endDocument_of_none hdoc]
    exact hd
  | some doc =>
    have hclosed := closed_endDocument hs hdoc
    by_cases hne : d = d'
    · subst hne
      intro doc' hdoc' hopen
      rw [hclosed.closed doc' hdoc'] at hopen
      contradiction
    · exact hd.around hclosed.toAround hne

/-- A first look at a document fails only if the host is erratic. -/
theorem firstLook_of_steady (hI : h.Respects I) (hsteady : ¬ Erratic h.toHost I d)
    (hdoc : e.Holds d doc) (hhost : I e.host) (hfree : e.tracked.lookup d = none) :
    ∃ r e' doc', firstLook h.toHost c d doc.grammar e = (.ok r, e') ∧ e'.Holds d doc' := by
  rw [firstLook]
  cases hl : c.languageOf doc.grammar with
  | none => exact ⟨none, e, doc, rfl, hdoc⟩
  | some l =>
    obtain ⟨e', f, -, -, hescapes | ⟨s, f', hs, herror⟩⟩ | ⟨e', f, hhostOnly, hr⟩ |
        ⟨e', doc', e₁, -, hr, hshape, -⟩ :=
      turnLenient_ends hI c hdoc hhost hfree none l
    · exact absurd (hescapes.erratic hhost) hsteady
    · exact absurd ⟨s, f', hs, .inr herror⟩ hsteady
    · exact ⟨some f, e', doc, hr, hhostOnly.holds hdoc⟩
    · exact ⟨none, e', doc', hr, hshape.holds hdoc⟩

/-- A document that is observed is followed from then on. -/
theorem heeded_observe (hI : h.Respects I) (hsteady : ¬ Erratic h.toHost I d)
    (hdoc : e.Holds d doc) (hhost : I e.host) (hfree : e.tracked.lookup d = none) :
    ∃ n e', observe h.toHost c d e = (.ok n, e') ∧ Heeded d e' := by
  have henter : (entered e d).Holds d doc := hdoc
  obtain ⟨r, e₂, doc₂, hr, hdoc₂⟩ := firstLook_of_steady (c := c) hI hsteady henter hhost hfree
  -- whatever the first look comes to, the document is followed afterwards
  refine ⟨_, _, (observe_of_firstLook hdoc hfree hr).2 r doc₂ rfl hdoc₂, fun doc' hdoc' _ => ?_⟩
  have hput : (e₂.noted e.observations.length doc₂.grammar).Holds d doc₂ := hdoc₂
  obtain rfl := (hput.put _).unique hdoc'
  refine ⟨e.observations.length, ?_⟩
  rw [followed, Emitter.callbacks_subscribe]
  exact List.mem_append_right _ List.mem_cons_self

/-! ## All documents -/

/-- A workspace in order. While the lenient mode is on, the controller hears of documents that are
opened and follows those that are open. -/
structure Covering (I : σ → Prop) (c : ControllerSettings) (w : Workspace σ κ) : Prop
    extends Tended I c w where
  guest : w.lenient = true → .controller ∈ w.guests.callbacks
  heeded : w.lenient = true → ∀ d ∈ w.opened, Heeded d w.editor

/-- What keeps everything in order, and each document followed, may be done in the editor. -/
theorem Covering.inEditor {α : Type} {a : Action (Editor σ κ) α}
    (ha : ∀ active opened N, Preserves (Orderly I c active opened N) a)
    (hheeded : ∀ active opened N e d, Orderly I c active opened N e → Heeded d e →
      Heeded d (a e).2) : Preserves (Covering I c) (inEditor a) :=
  fun w hw => ⟨Tended.inEditor ha w hw.toTended, hw.guest, fun hon d hd =>
    hheeded _ _ _ _ d hw.orderly (hw.heeded hon d hd)⟩

/-- Whatever moves nothing leaves the workspace covered. -/
theorem Covering.unmoved {α : Type} {a : Action (Editor σ κ) α}
    (ha : ∀ active opened N, Preserves (Orderly I c active opened N) a)
    (hunmoved : ∀ e, Preserves (Unmoved e) a) : Preserves (Covering I c) (Workspace.inEditor a) :=
  Covering.inEditor ha fun _ _ _ e _ _ hd => hd.unmoved (hunmoved e e (.refl e))

/-- What is done within the host leaves the workspace covered. -/
theorem Covering.within {α : Type} {a : Action (Editor σ κ) α} (ha : Within I a) :
    Preserves (Covering I c) (Workspace.inEditor a) :=
  .unmoved (fun _ _ _ => Orderly.within ha) fun _ => unmoved_within ha

/-- A document that is closed is not among those that are open. -/
theorem Covering.close (h : OpeningHost σ κ) (d : Nat) :
    Preserves (Covering I c) (close d : Action (Workspace σ κ) Unit) := by
  intro w hw
  refine ⟨Tended.close h d w hw.toTended, hw.guest, fun hon d' hd' => ?_⟩
  exact (hw.heeded hon d' (List.mem_of_mem_erase hd')).endDocument hw.orderly.toSteady d

/-- Other guests come and go. -/
theorem Covering.welcome (h : OpeningHost σ κ) (id : Nat) (name : String) :
    Preserves (Covering I c) (welcome h c (.listener id name)) := by
  have hmark (d : Nat) : Preserves (Covering I c) (introduce h c d (.listener id name)) :=
    Covering.unmoved (fun _ _ _ => Orderly.mark name (.document d)) fun _ => unmoved_mark name _
  -- the controller stays among the guests whoever else joins them
  refine (Preserves.ask _).bind fun ds => Preserves.bind (Preserves.forM fun d _ => hmark d)
    fun _ w hw => ⟨hw.guests_of_count ?_, fun hon => ?_, hw.heeded⟩
  · rw [Emitter.callbacks_subscribe, List.count_append]
    exact hw.guests
  · show _ ∈ (w.guests.subscribe _).callbacks
    rw [Emitter.callbacks_subscribe]
    exact List.mem_append_left _ (hw.guest hon)

/-- That a guest leaves does not uncover the workspace. -/
theorem Covering.dismiss (id : Nat) (name : String) :
    Preserves (Covering I c) (dismiss (.listener id name) : Action (Workspace σ κ) Unit) := by
  refine fun w hw => ⟨Tended.dismiss id name w hw.toTended, fun hon => ?_, hw.heeded⟩
  show _ ∈ (w.guests.unsubscribe _).callbacks
  rw [Emitter.callbacks_unsubscribe]
  exact (List.mem_erase_of_ne (by simp)).mpr (hw.guest hon)

section Deeds

variable (hI : h.Respects I) (hsteady : ∀ d, ¬ Erratic h.toHost I d)

include hsteady

/-- It can be told of each document whether it is modified. -/
theorem modified_of_steady (d : Nat) (s : σ) (hs : I s) : (h.checkModified d s).1 = .ok () :=
  checkModified_of_steady (hsteady d) hs

include hI

/-- The controller begins to follow a document. -/
theorem introduce_heeded (ht : Tended I c w) (hd : d < w.editor.documents.length)
    (hr : Ready d w) :
    ∃ e', introduce h c d .controller w = (.ok (), { w with editor := e' }) ∧
      ∀ d', d' = d ∨ Heeded d' w.editor → Heeded d' e' := by
  obtain ⟨doc, hdoc⟩ : ∃ doc, w.editor.Holds d doc := ⟨_, List.getElem?_eq_getElem hd⟩
  obtain ⟨n, e', ho, hheeded⟩ :=
    heeded_observe (c := c) hI (hsteady d) hdoc ht.orderly.host hr.free
  have haround := (ht.orderly.tuned.observe (h := h.toHost) d hr.free).2
  rw [ho] at haround
  refine ⟨e', ?_, fun d' hd' => ?_⟩
  · rw [introduce, Action.bind_apply, Workspace.inEditor, Action.on_apply, ho]
    rfl
  · by_cases hne : d' = d
    · rw [hne]
      exact hheeded
    · exact (hd'.resolve_left hne).around haround hne

/-- It begins to follow documents none of which it follows. -/
theorem introduce_each_heeded {ds : List Nat} (hds : ds.Nodup) (ht : Tended I c w)
    (hon : w.lenient = true) (hopened : ∀ d ∈ ds, d ∈ w.opened ∧ Ready d w) :
    ∃ e', ds.forM (fun d => introduce h c d .controller) w = (.ok (), { w with editor := e' }) ∧
      ∀ d', d' ∈ ds ∨ Heeded d' w.editor → Heeded d' e' := by
  induction ds generalizing w with
  | nil => exact ⟨w.editor, rfl, fun d' hd' => hd'.resolve_left List.not_mem_nil⟩
  | cons d ds ih =>
    obtain ⟨hd, hds'⟩ := List.nodup_cons.mp hds
    obtain ⟨⟨hmem, hr⟩, hrest⟩ := List.forall_mem_cons.mp hopened
    obtain ⟨e₁, hstep, hheeded⟩ :=
      introduce_heeded (c := c) hI hsteady ht (ht.exist d hmem) hr
    have hfirst := ht.introduce hI (modified_of_steady hsteady) hon hmem hr
    rw [hstep] at hfirst
    -- The others are different documents, so that they are as ready as before.
    obtain ⟨e', hall, hheededs⟩ := ih hds' hfirst.1 hon fun d' hd' => by
      obtain ⟨hmem', hr'⟩ := hrest d' hd'
      refine ⟨hmem', hfirst.2 d' ?_ hr'⟩
      rintro rfl
      exact hd hd'
    refine ⟨e', ?_, fun d' hd' => hheededs d' ?_⟩
    · show (introduce h c d .controller >>= fun _ => ds.forM _) w = _
      rw [Action.bind_of_ok hstep]
      exact hall
    · rw [List.mem_cons, or_assoc] at hd'
      obtain heq | hmem' | hheeded' := hd'
      · exact Or.inr (hheeded d' (Or.inl heq))
      · exact Or.inl hmem'
      · exact Or.inr (hheeded d' (Or.inr hheeded'))

/-- A document is introduced to all guests, one of whom may be the controller. -/
theorem introduce_all_heeded (gs : List Guest) (honce : gs.count .controller ≤ 1)
    (ht : Tended I c w) (hd : d ∈ w.opened)
    (hcontroller : .controller ∈ gs → w.lenient = true ∧ Ready d w) :
    ∃ e', gs.forM (introduce h c d) w = (.ok (), { w with editor := e' }) ∧
      ∀ d', d' = d ∧ .controller ∈ gs ∨ Heeded d' w.editor → Heeded d' e' := by
  induction gs generalizing w with
  | nil =>
    refine ⟨w.editor, rfl, fun d' hd' => ?_⟩
    exact hd'.resolve_left fun hmem => List.not_mem_nil hmem.2
  | cons g gs ih =>
    cases g with
    | controller =>
      obtain ⟨hon, hr⟩ := hcontroller List.mem_cons_self
      obtain ⟨e₁, hstep, hheeded⟩ :=
        introduce_heeded (c := c) hI hsteady ht (ht.exist d hd) hr
      have hfirst := ht.introduce hI (modified_of_steady hsteady) hon hd hr
      rw [hstep] at hfirst
      -- the others are listeners
      rw [List.count_cons_self] at honce
      have hlast : .controller ∉ gs := List.count_eq_zero.mp (by omega)
      obtain ⟨e', hall, hheededs⟩ := ih (w := { w with editor := e₁ }) (by omega) hfirst.1 hd
        fun hmem => absurd hmem hlast
      refine ⟨e', ?_, fun d' hd' => hheededs d' (Or.inr (hheeded d' (hd'.imp_left And.left)))⟩
      show (introduce h c d .controller >>= fun _ => gs.forM _) w = _
      rw [Action.bind_of_ok hstep]
      exact hall
    | listener id name =>
      have hmem : .controller ∈ Guest.listener id name :: gs ↔ .controller ∈ gs := by simp
      obtain ⟨e₁, hstep, hu⟩ : ∃ e₁, introduce h c d (.listener id name) w
          = (.ok (), { w with editor := e₁ }) ∧ Unmoved w.editor e₁ :=
        ⟨_, rfl, ⟨rfl, rfl, (Unmoved.refl w.editor).documents⟩⟩
      have hfirst := Tended.listener h d id name w ht
      rw [hstep] at hfirst
      obtain ⟨e', hall, hheededs⟩ := ih (w := { w with editor := e₁ }) (by simpa using honce)
        hfirst hd fun hlater => by
          obtain ⟨hon, hr⟩ := hcontroller (hmem.mpr hlater)
          exact ⟨hon, hr.unmoved hu⟩
      refine ⟨e', ?_, fun d' hd' => hheededs d' ?_⟩
      · show (introduce h c d (.listener id name) >>= fun _ => gs.forM _) w = _
        rw [Action.bind_of_ok hstep]
        exact hall
      · exact hd'.imp (And.imp_right hmem.mp) fun hheeded => hheeded.unmoved hu

/-- A document that has been read is introduced to the controller, if the lenient mode is on. -/
theorem Covering.announced (hw : Covering I c w) (hp : Pending I c d w) : Covering I c ((do
    Action.change fun w => { w with opened := w.opened ++ [d] }
    (← Action.ask Workspace.guests).callbacks.forM (introduce h c d)
    return d : Action (Workspace σ κ) Nat) w).2 := by
  have htended := hp.announced hI (modified_of_steady hsteady)
  -- The controller is among the guests only while the lenient mode is on.
  have hon (hmem : .controller ∈ w.guests.callbacks) : w.lenient = true := by
    have hcount := hp.guests
    have hpos := List.count_pos_iff.mpr hmem
    split at hcount
    · assumption
    · omega
  obtain ⟨e', hr, hheeded⟩ := introduce_all_heeded (c := c) hI hsteady w.guests.callbacks
    (Nat.le_trans hp.guests (by split <;> omega)) hp.opened
    (List.mem_append_right _ List.mem_cons_self) fun hmem => ⟨hon hmem, hp.free, hp.alone⟩
  have happly : ((do
      Action.change fun w => { w with opened := w.opened ++ [d] }
      (← Action.ask Workspace.guests).callbacks.forM (introduce h c d)
      return d : Action (Workspace σ κ) Nat) w)
        = (.ok d, { w with opened := w.opened ++ [d], editor := e' }) := by
    rw [Action.bind_apply, Action.change_apply]
    simp only [Action.bind_apply, Action.ask_apply]
    rw [hr]
    rfl
  rw [happly] at htended ⊢
  refine ⟨htended, hw.guest, fun hlenient d' hd' => hheeded d' ?_⟩
  obtain hmem | hlast := List.mem_append.mp hd'
  · exact Or.inr (hw.heeded hlenient d' hmem)
  · exact Or.inl ⟨List.mem_singleton.mp hlast, hw.guest hlenient⟩

variable (hopen : ∀ p s, I s → I (h.openFile p s).2)
  (hpresent : ∀ n s, I s → I (h.isPresent n s).2)

include hopen hpresent

/-- Opening a document leaves the workspace covered: while the lenient mode is on, the controller
follows it. -/
theorem Covering.openDocument (path : Option String) (grammar : Option Grammar) (text : Text) :
    Preserves (Covering I c) (openDocument h c path grammar text) := by
  have hfile := preserves_openFile hopen path
  have hstep {α : Type} {a : Action (Editor σ κ) α} {d : Nat}
      (ha : ∀ active opened N, Preserves (Orderly I c active opened N) a)
      (hunmoved : ∀ e, Preserves (Unmoved e) a) :
      Preserves (fun w => Covering I c w ∧ Pending I c d w) (Workspace.inEditor a) :=
    fun w hw => ⟨Covering.unmoved ha hunmoved w hw.1, Pending.inEditor ha hunmoved w hw.2⟩
  refine preserves_openDocument (Q := fun d w => Covering I c w ∧ Pending I c d w)
    (Covering.within (Confined.outside hfile).within) (fun w doc hw hfree hend hbare => ?_)
    (fun d n => ?_) (fun d => ?_) (fun d => ?_) fun d w hw =>
      ⟨hw.1, hw.1.announced hI hsteady hw.2⟩
  · have hp := hw.toTended.pending hfree hend hbare
    refine ⟨⟨hp.toTended, hw.guest, fun hon d' hd' doc' hdoc' => ?_⟩, hp⟩
    -- the new document is not among those that are open
    have hold : (w.editor.documents ++ [doc])[d']? = w.editor.documents[d']? :=
      List.getElem?_append_left (hw.exist d' hd')
    exact hw.heeded hon d' hd' doc' (hold.symm.trans hdoc')
  · have hwithin := (Confined.outside (κ := κ) (hpresent n)).within
    exact hstep (fun _ _ _ => Orderly.within hwithin) fun _ => unmoved_within hwithin
  · exact hstep (fun _ _ _ => Orderly.load hI d) fun _ => unmoved_load h.toHost d
  · exact hstep (fun _ _ _ => Orderly.setText hI d text) fun _ => unmoved_setText h.toHost d text

omit hopen hpresent

/-- When the lenient mode is switched on, the controller begins to follow all open documents. -/
theorem Covering.activate : Preserves (Covering I c) (activate h c) := by
  intro w hw
  have htended := Tended.activate hI (modified_of_steady hsteady) w hw.toTended
  rw [Workspace.activate, Action.bind_apply, Action.ask_apply] at htended ⊢
  simp only [] at htended ⊢
  split at htended
  · next hon =>
    rw [if_pos hon]
    exact hw
  next hoff =>
  obtain ⟨ht', -, hready⟩ := hw.toTended.activated (by simpa using hoff)
  obtain ⟨e', hr, hheeded⟩ := introduce_each_heeded (c := c) hI hsteady hw.different ht' rfl
    fun d hd => ⟨hd, ⟨(hready d).free, (hready d).alone⟩⟩
  rw [if_neg hoff]
  rw [Action.bind_apply, Action.change_apply] at htended ⊢
  simp only [Workspace.welcome, Action.bind_apply, Action.ask_apply, hr, Action.change_apply]
    at htended ⊢
  refine ⟨htended, fun _ => ?_, fun _ d hd => hheeded d (Or.inl hd)⟩
  rw [Emitter.callbacks_subscribe]
  exact List.mem_append_right _ List.mem_cons_self

/-! ## Runs -/

include hopen hpresent

/-- Every deed keeps all open documents followed. -/
theorem Covering.perform {deed : Deed σ}
    (helsewhere : ∀ a, deed = .elsewhere a → ∀ s, I s → I (a s).2) :
    Preserves (Covering I c) (deed.perform h c) := by
  cases deed with
  | openDocument path grammar text =>
    exact (Covering.openDocument hI hsteady hopen hpresent path grammar text).bind fun _ =>
      Preserves.pure _
  | close d => exact Covering.close h d
  | destroy d =>
    exact Covering.inEditor (fun _ _ _ => Orderly.endDocument h.toHost d)
      fun _ _ _ _ _ ho hd' => hd'.endDocument ho.toSteady d
  | activate => exact Covering.activate hI hsteady
  | deactivate =>
    intro w hw
    cases hon : w.lenient with
    | true =>
      obtain ⟨e', -, hr, ht⟩ := hw.toTended.deactivate (c := c) hI
        (modified_of_steady hsteady) hon
      show Covering I c (Workspace.deactivate h c w).2
      rw [hr]
      exact ⟨ht, nofun, nofun⟩
    | false =>
      show Covering I c (Workspace.deactivate h c w).2
      rw [Workspace.deactivate, Action.bind_apply, Action.ask_apply]
      simp only [hon]
      exact hw
  | welcome id name => exact Covering.welcome h id name
  | dismiss id name => exact Covering.dismiss id name
  | setGrammar d g =>
    exact Covering.inEditor (fun _ _ _ =>
      Orderly.changeGrammar hI (modified_of_steady hsteady) d g)
      fun _ _ _ _ _ ho hd' => hd'.changeGrammar ho.toSteady d g
  | edit d t =>
    exact Covering.unmoved (fun _ _ _ => Orderly.setText hI d t)
      fun _ => unmoved_setText h.toHost d t
  | load d =>
    exact Covering.unmoved (fun _ _ _ => Orderly.load hI d) fun _ => unmoved_load h.toHost d
  | save d =>
    exact Covering.unmoved (fun _ _ _ => Orderly.save hI d) fun _ => unmoved_save h.toHost d
  | listenGrammar d id name =>
    exact Covering.unmoved (fun _ _ _ => Orderly.listenGrammar d id name)
      fun _ => unmoved_listenGrammar d id name
  | listenEnd d id name =>
    exact Covering.unmoved (fun _ _ _ => Orderly.listenEnd d id name)
      fun _ => unmoved_listenEnd d id name
  | unlisten d id name =>
    exact Covering.unmoved (fun _ _ _ => Orderly.unlisten d id name)
      fun _ => unmoved_unlisten d id name
  | notify f => exact Covering.within (Within.notify f)
  | mark name t =>
    exact Covering.unmoved (fun _ _ _ => Orderly.mark name t) fun _ => unmoved_mark name t
  | elsewhere a => exact Covering.within (Confined.outside (helsewhere a rfl)).within

/-- After any run the controller follows every open document that has not ended, as long as the
lenient mode is on. -/
theorem Covering.workOn {deeds : List (Deed σ)}
    (helsewhere : ∀ a, .elsewhere a ∈ deeds → ∀ s, I s → I (a s).2) (hw : Covering I c w) :
    Covering I c (workOn h c w deeds) := by
  induction deeds generalizing w with
  | nil => exact hw
  | cons deed deeds ih =>
    refine ih (fun a ha => helsewhere a (List.mem_cons_of_mem _ ha))
      (Covering.perform hI hsteady hopen hpresent ?_ w hw)
    rintro a rfl
    exact helsewhere a List.mem_cons_self

end Deeds

/-- A fresh workspace has nothing to cover. -/
theorem covering_fresh {s : σ} (hs : I s) : Covering I c (fresh s : Workspace σ κ) :=
  ⟨tended_fresh hs, nofun, nofun⟩

end Dialects.Workspace

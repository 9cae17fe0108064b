import Dialects.Proofs.Editor.Unfailing
import Dialects.Proofs.Editor.Workspace
import Dialects.Rehearsal.Workroom

/-!
# Off and on again

When the lenient mode is switched off, every lenient document becomes canonical but keeps its
grammar, so that it becomes lenient again when the mode is switched on. As long as nothing fails,
this brings back what is loaded from a file. A text that is modified is converted to the canonical
dialect, and since it is then opened as lenient it stays so: it is taken to be lenient already. Only
a text that is written alike in both dialects is as it should be (`keepsLenient_iff`).

## Main definitions

* `Workspace.restart`: the lenient mode is switched off and on again;
* `KeepsLenient`: what is expected of it;
* `Unfailing`: nothing fails meanwhile.

## Main results

* `restart_ok`: what becomes of lenient documents;
* `keepsLenient_iff`: when it is what is expected.
-/

namespace Dialects

/-- The canonical text of a text, shown in the lenient dialect. -/
def Host.normalized {σ κ : Type} (h : Host σ κ) (s : σ) (l : String) (t : Text) :
    Except Failure Text :=
  h.converted s l .toCanonical t >>= h.converted s l .toLenient

namespace Workspace

open Dialects.Action Dialects.Editor

variable {σ κ : Type} {I : σ → Prop} {h : OpeningHost σ κ} {c : ControllerSettings}
  {w : Workspace σ κ} {d : Nat} {doc doc' : Document κ} {l : String} {t : Text}
  {alike : Part → σ → σ → Prop} {s : σ}

/-- Switches the lenient mode off and on again. -/
def restart (h : OpeningHost σ κ) (c : ControllerSettings) : Action (Workspace σ κ) Unit := do
  deactivate h c
  activate h c

/-- A document that is not closed is shown in the lenient dialect of a language. -/
structure Shows (w : Workspace σ κ) (d : Nat) (doc : Document κ) (l : String) : Prop where
  holds : w.editor.Holds d doc
  alive : doc.closed = false
  tracked : w.editor.tracked.lookup d = some l

/-- No conversion and no read fails when the lenient mode is switched off and on again. -/
structure Unfailing (h : OpeningHost σ κ) (c : ControllerSettings) (w : Workspace σ κ) : Prop where
  /-- There are converters for the grammars of open documents. -/
  converters : ∀ d ∈ w.opened, ∀ doc l, w.editor.Holds d doc → c.languageOf doc.grammar = some l →
    ∃ set, (h.converters l w.editor.host).1 = .ok set
  /-- Texts can be replaced. -/
  edit : ∀ d, (h.checkEdit d w.editor.host).1 = .ok ()
  /-- Documents can be loaded. -/
  load : ∀ d, (h.checkLoad d w.editor.host).1 = .ok ()
  /-- Texts that are modified can be converted to the canonical dialect. -/
  conversion : ∀ d doc l, Shows w d doc l → doc.modified = true →
    ∃ t, h.converted w.editor.host l .toCanonical doc.text = .ok t
  /-- Files that are loaded can be read and shown in the lenient dialect. -/
  reading : ∀ d doc l n, Shows w d doc l → doc.modified = false →
    h.backing w.editor.host doc = some n → ∃ t, h.shown w.editor.host l n = .ok t

/-- Switching the lenient mode off and on again succeeds and keeps lenient documents lenient in the
same language. A text that is modified is converted to the canonical dialect and back; where none
is, the file is shown if there is one. -/
def KeepsLenient (h : OpeningHost σ κ) (c : ControllerSettings) (w : Workspace σ κ) : Prop :=
  ∃ w', restart h c w = (.ok (), w') ∧ ∀ d doc l, Shows w d doc l → ∃ doc', Shows w' d doc' l ∧
    (doc.modified = true → h.normalized w.editor.host l doc.text = .ok doc'.text) ∧
    ∀ n, doc.modified = false → h.backing w.editor.host doc = some n →
      h.shown w.editor.host l n = .ok doc'.text

/-! ## Off -/

/-- The documents have the grammars that they had, and the same ones are closed. -/
def KeepsGrammars (e e' : Editor σ κ) : Prop :=
  ∀ d doc', e'.Holds d doc' →
    ∃ doc, e.Holds d doc ∧ doc'.grammar = doc.grammar ∧ doc'.closed = doc.closed

/-- The end of an observation keeps all grammars. -/
theorem keepsGrammars_unobserve {e : Editor σ κ} (n : Nat) :
    Preserves (KeepsGrammars e) (unobserve n) := by
  refine (Preserves.ask _).bind fun os => ?_
  split
  · exact Preserves.pure _
  · intro e₁ hkeeps d doc' hdoc'
    obtain ⟨doc₁, hdoc₁, rfl⟩ := exists_of_modify hdoc'
    split
    · exact hkeeps d doc₁ hdoc₁
    · exact hkeeps d doc₁ hdoc₁

/-- Turning the lenient mode off keeps all grammars. -/
theorem keepsGrammars_disable {e : Editor σ κ} (n : Nat) :
    Preserves (KeepsGrammars e) (disable h.toHost c n) := by
  intro e₁ hkeeps d doc' hdoc'
  cases hn : e₁.documents[n]? with
  | none =>
    rw [disable_of_none h.toHost c hn] at hdoc'
    exact hkeeps d doc' hdoc'
  | some doc₁ =>
    obtain ⟨doc₂, hakin, hshape⟩ := exists_shape_disable h.toHost.respects_true c hn trivial
    rw [Holds, hshape.documents] at hdoc'
    -- the document itself keeps its grammar, and so does every other one, which is not touched
    by_cases hd : d = n
    · subst hd
      obtain ⟨doc, hdoc, hgrammar, hclosed⟩ := hkeeps d doc₁ hn
      obtain rfl := (Holds.put hn doc₂).unique hdoc'
      exact ⟨doc, hdoc, hakin.grammar.trans hgrammar, hakin.closed.trans hclosed⟩
    · rw [List.getElem?_set_ne (Ne.symm hd)] at hdoc'
      exact hkeeps d doc' hdoc'

/-- Documents keep their grammars when the lenient mode is switched off. -/
theorem keepsGrammars_deactivate (h : OpeningHost σ κ) (c : ControllerSettings) (e : Editor σ κ) :
    KeepsGrammars e (Editor.deactivate h.toHost c false e).2 := by
  have hrefl : KeepsGrammars e e := fun _ doc hdoc => ⟨doc, hdoc, rfl, rfl⟩
  have hfirst : KeepsGrammars e ((List.range e.observations.length).forM unobserve e).2 :=
    Preserves.forM (fun n _ => keepsGrammars_unobserve n) e hrefl
  obtain ⟨e₁, hgiven, -⟩ := forM_unobserve (List.range e.observations.length) e
  rw [hgiven] at hfirst
  rw [deactivate_apply hgiven]
  exact Preserves.forM (fun t _ => keepsGrammars_disable t.1) e₁ hfirst

/-! ## On -/

/-- At some moment between the two, when the host resembles the given state, the controller has
begun to follow the document. -/
def Met (h : OpeningHost σ κ) (c : ControllerSettings) (alike : Part → σ → σ → Prop) (s : σ)
    (d : Nat) (e e' : Editor σ κ) : Prop :=
  ∃ e₁, Resembles alike s e₁.host ∧ e₁.documents[d]? = e.documents[d]? ∧
    e₁.tracked.lookup d = none ∧
    e'.documents[d]? = (observe h.toHost c d e₁).2.documents[d]? ∧
    e'.tracked.lookup d = (observe h.toHost c d e₁).2.tracked.lookup d

section Separate

variable (hh : h.toHost.Separate alike fun _ => True)

include hh

/-- The controller begins to follow documents none of which it follows. -/
theorem introduce_each_ok (hmodified : ∀ d, (h.checkModified d s).1 = .ok ()) {ds : List Nat}
    (hds : ds.Nodup) (ht : Tuned c w.editor) (he : Resembles alike s w.editor.host)
    (hfree : ∀ d ∈ ds, w.editor.tracked.lookup d = none)
    (hset : ∀ d ∈ ds, ∃ doc, w.editor.Holds d doc ∧
      ∀ l, c.languageOf doc.grammar = some l → ∃ set, (h.converters l s).1 = .ok set) :
    ∃ e', ds.forM (fun d => introduce h c d .controller) w = (.ok (), { w with editor := e' }) ∧
      (∀ d ∉ ds, e'.documents[d]? = w.editor.documents[d]? ∧
        e'.tracked.lookup d = w.editor.tracked.lookup d) ∧
      ∀ d ∈ ds, Met h c alike s d w.editor e' := by
  induction ds generalizing w with
  | nil => exact ⟨w.editor, rfl, fun _ _ => ⟨rfl, rfl⟩, nofun⟩
  | cons d ds ih =>
    obtain ⟨hd, hds'⟩ := List.nodup_cons.mp hds
    obtain ⟨hfreed, hfreeds⟩ := List.forall_mem_cons.mp hfree
    obtain ⟨⟨doc, hdoc, hsetd⟩, hsetds⟩ := List.forall_mem_cons.mp hset
    obtain ⟨n, e₁, hr, he₁⟩ := observe_ok hh he hdoc hfreed hsetd (hmodified d)
    obtain ⟨ht₁, haround⟩ := ht.observe (h := h.toHost) d hfreed
    rw [hr] at ht₁ haround
    have hstep : introduce h c d .controller w = (.ok (), { w with editor := e₁ }) := by
      rw [introduce, Action.bind_apply, Workspace.inEditor, Action.on_apply, hr]
      rfl
    have hne {d' : Nat} (hd' : d' ∈ ds) : d' ≠ d := by
      rintro rfl
      exact hd hd'
    obtain ⟨e', hrest, hothers, hmet⟩ := ih (w := { w with editor := e₁ }) hds' ht₁ he₁
      (fun d' hd' => (haround.tracked d' (hne hd')).trans (hfreeds d' hd')) fun d' hd' => by
        obtain ⟨doc', hdoc', hset'⟩ := hsetds d' hd'
        exact ⟨doc', (haround.documents d' (hne hd')).trans hdoc', hset'⟩
    -- what happens to the others afterwards makes no difference to this one
    refine ⟨e', ?_, fun d' hd' => ?_, fun d' hd' => ?_⟩
    · show (introduce h c d .controller >>= fun _ => ds.forM _) w = _
      rw [Action.bind_of_ok hstep]
      exact hrest
    · obtain ⟨hnot, hnots⟩ := not_or.mp (mt List.mem_cons.mpr hd')
      obtain ⟨hdocuments, htracked⟩ := hothers d' hnots
      exact ⟨hdocuments.trans (haround.documents d' hnot),
        htracked.trans (haround.tracked d' hnot)⟩
    · obtain rfl | hmem := List.mem_cons.mp hd'
      · obtain ⟨hdocuments, htracked⟩ := hothers d' hd
        refine ⟨w.editor, he, rfl, hfreed, ?_, ?_⟩
        · rw [hr]
          exact hdocuments
        · rw [hr]
          exact htracked
      · obtain ⟨e₂, he₂, hdocuments, hrest⟩ := hmet d' hmem
        exact ⟨e₂, he₂, hdocuments.trans (haround.documents d' (hne hmem)), hrest⟩

/-- The lenient mode is switched on. -/
theorem activate_ok (hmodified : ∀ d, (h.checkModified d s).1 = .ok ()) (ht : Tended I c w)
    (hoff : w.lenient = false) (he : Resembles alike s w.editor.host)
    (hset : ∀ d ∈ w.opened, ∀ doc l, w.editor.Holds d doc → c.languageOf doc.grammar = some l →
      ∃ set, (h.converters l s).1 = .ok set) :
    ∃ w', activate h c w = (.ok (), w') ∧
      ∀ d ∈ w.opened, Met h c alike s d w.editor w'.editor := by
  have hidle := ht.orderly.idle hoff
  -- while the mode is off nothing counts as lenient, so that the documents are met one by one
  obtain ⟨e', hr, -, hmet⟩ := introduce_each_ok (w := { w with lenient := true }) hh hmodified
    ht.different ht.orderly.tuned he (fun d _ => by rw [hidle]; rfl) fun d hd => by
      obtain ⟨doc, hdoc⟩ : ∃ doc, w.editor.Holds d doc :=
        ⟨_, List.getElem?_eq_getElem (ht.exist d hd)⟩
      exact ⟨doc, hdoc, fun l => hset d hd doc l hdoc⟩
  refine ⟨{ w with
    editor := e'
    lenient := true
    guests := w.guests.subscribe .controller }, ?_, hmet⟩
  rw [activate, Action.bind_apply, Action.ask_apply]
  simp only [hoff, Bool.false_eq_true, if_false, Action.bind_apply, Action.change_apply, welcome,
    Action.ask_apply, hr]

/-! ## Off and on again -/

omit hh in
/-- A document is open that is shown in the lenient dialect, and its grammar stands for the
language. -/
theorem Shows.open (hw : Tended I c w) (hshows : Shows w d doc l) :
    d ∈ w.opened ∧ c.languageOf doc.grammar = some l := by
  have ho := hw.orderly
  obtain ⟨n, hn⟩ := ho.tuned.attended d doc hshows.holds hshows.alive
    (isLenient_of_lookup hshows.tracked)
  exact ⟨(ho.placed d doc hshows.holds).opened n hn hshows.alive,
    ho.tuned.matching d doc l hshows.holds hshows.alive hshows.tracked⟩

omit hh in
/-- If nothing fails, the text of a lenient document can be restored. -/
theorem Unfailing.restored (hu : Unfailing h c w) (hshows : Shows w d doc l) :
    ∃ t, h.restored w.editor.host l doc = .ok t := by
  rw [Host.restored]
  cases hmodified : doc.modified with
  -- a modified text is converted back
  | true => exact hu.conversion d doc l hshows hmodified
  | false =>
    rw [if_neg Bool.false_ne_true]
    cases hn : h.backing w.editor.host doc with
    | none => exact ⟨doc.text, rfl⟩
    | some n =>
      -- any other text is read from its file again, if there is one
      obtain ⟨t, ht⟩ := hu.reading d doc l n hshows hmodified hn
      obtain ⟨chunks, -, hchunks, -⟩ := Host.exists_of_shown ht
      refine ⟨chunks.flatten, ?_⟩
      rw [Option.elim_some, Host.stored, hchunks]
      rfl

omit hh in
/-- If nothing fails, a document can be opened as lenient, whatever its text. -/
theorem Unfailing.opening (hu : Unfailing h c w) (hshows : Shows w d doc l) (t : Text) :
    ∃ t', h.opening w.editor.host l { doc with text := t } = .ok t' := by
  rw [Host.opening_text]
  cases hmodified : doc.modified with
  | true => exact ⟨t, rfl⟩
  | false =>
    rw [if_neg Bool.false_ne_true]
    cases hn : h.backing w.editor.host doc with
    | none => exact ⟨t, rfl⟩
    | some n => exact hu.reading d doc l n hshows hmodified hn

/-- While the mode is off, the document is canonical: its text is restored, and it has its old
handle. -/
theorem Shows.off (hshows : Shows w d doc l)
    (hmodified : (h.checkModified d w.editor.host).1 = .ok ()) (hu : Unfailing h c w)
    (hreload : c.reload = true) (hbare : IsBare (doc.handle.map Handle.unmapped))
    (ht : h.restored w.editor.host l doc = .ok t) :
    ∃ doc', (Editor.deactivate h.toHost c false w.editor).2.Holds d doc' ∧
      doc'.grammar = doc.grammar ∧ doc'.closed = doc.closed ∧
      doc'.content = (t, doc.modified, doc.handle.map Handle.unmapped) := by
  have hrefl : Resembles alike w.editor.host w.editor.host := fun p => (hh.equivalence p).refl _
  -- turning all documents canonical treats each as if it were the only one
  have hcontent : (Editor.deactivate h.toHost c false w.editor).2.content? d
      = some (t, doc.modified, doc.handle.map Handle.unmapped) :=
    (content?_deactivate (e := w.editor) hh c (fun _ _ _ _ _ _ _ _ => trivial) d).trans
      (content?_disable hh hrefl hshows.holds hshows.tracked hmodified (hu.edit d) (hu.load d)
        hreload hbare ht)
  obtain ⟨doc', hdoc', hsame⟩ := Option.map_eq_some_iff.mp hcontent
  obtain ⟨doc₀, hdoc₀, hgrammar, hclosed⟩ := keepsGrammars_deactivate h c w.editor d doc' hdoc'
  obtain rfl := hshows.holds.unique hdoc₀
  exact ⟨doc', hdoc', hgrammar, hclosed, hsame⟩

/-- From the moment of its observation on, a document that can be shown is lenient again. -/
theorem Met.shows {w' : Workspace σ κ} {e : Editor σ κ} (hmet : Met h c alike s d e w'.editor)
    (hdoc : e.Holds d doc) (halive : doc.closed = false)
    (hl : c.languageOf doc.grammar = some l) {set : κ} (hset : (h.converters l s).1 = .ok set)
    (hmodified : (h.checkModified d s).1 = .ok ()) (hload : (h.checkLoad d s).1 = .ok ())
    (hreload : c.reload = true) (hbare : IsBare doc.handle) (ht : h.opening s l doc = .ok t) :
    ∃ doc', Shows w' d doc' l ∧ doc'.text = t := by
  obtain ⟨e₁, he₁, hdocuments, hfree, hdocuments', htracked'⟩ := hmet
  obtain ⟨doc', hdoc', hl', hclosed, htext⟩ := observe_shown (c := c) hh he₁
    (hdocuments.trans hdoc) hfree hl hset hmodified hload hreload hbare ht
  exact ⟨doc', ⟨hdocuments'.trans hdoc', hclosed.trans halive, htracked'.trans hl'⟩, htext⟩

/-- What becomes of the documents that are shown in the lenient dialect. -/
theorem restart_ok (hI : h.toHost.Respects I)
    (hmodified : ∀ d s, I s → (h.checkModified d s).1 = .ok ()) (hreload : c.reload = true)
    (hw : Tended I c w) (hu : Unfailing h c w) :
    ∃ w', restart h c w = (.ok (), w') ∧ ∀ d doc l, Shows w d doc l → ∃ doc' t, Shows w' d doc' l ∧
      h.restored w.editor.host l doc = .ok t ∧
      h.opening w.editor.host l { doc with text := t } = .ok doc'.text := by
  have hrefl : Resembles alike w.editor.host w.editor.host := fun p => (hh.equivalence p).refl _
  have hmodified' (d : Nat) := hmodified d w.editor.host hw.orderly.host
  cases hon : w.lenient with
  | false =>
    -- nothing is lenient that could be kept so
    obtain ⟨w', hr, -⟩ := activate_ok hh hmodified' hw hon hrefl hu.converters
    refine ⟨w', ?_, fun d doc l hshows => ?_⟩
    · rw [restart, Action.bind_apply, Workspace.deactivate, Action.bind_apply, Action.ask_apply]
      simp only [hon, Bool.false_eq_true, if_false, pure_apply, hr]
    · have hnone := hshows.tracked
      rw [hw.orderly.idle hon] at hnone
      contradiction
  | true =>
  obtain ⟨e', hr, hoff, hw₁⟩ := hw.deactivate hI hmodified hon
  have he' : Resembles alike w.editor.host e'.host := by
    have hresembling := resembling_deactivate (c := c) hh w.editor hrefl
    rwa [hr] at hresembling
  have hkeeps := keepsGrammars_deactivate h c w.editor
  rw [hr] at hkeeps
  obtain ⟨w', hr', hmet⟩ := activate_ok hh hmodified' hw₁ rfl he' fun d hd doc' l hdoc' hl => by
    obtain ⟨doc, hdoc, hsame, -⟩ := hkeeps d doc' hdoc'
    exact hu.converters d hd doc l hdoc (hsame ▸ hl)
  refine ⟨w', (Action.bind_of_ok hoff).trans hr', fun d doc l hshows => ?_⟩
  obtain ⟨hopened, hl⟩ := hshows.open hw
  have hbare := (hw.orderly.placed d doc hshows.holds).mapped hshows.alive
  obtain ⟨t, ht⟩ := hu.restored hshows
  obtain ⟨t', ht'⟩ := hu.opening hshows t
  obtain ⟨doc₁, hdoc₁, hgrammar, hclosed, hsame⟩ := hshows.off hh (hmodified' d) hu hreload hbare ht
  rw [hr] at hdoc₁
  rw [Document.content, Prod.mk.injEq, Prod.mk.injEq] at hsame
  obtain ⟨htext, hmod, hhandle⟩ := hsame
  -- it has the file that it had, so that the same is read
  have hopening : h.opening w.editor.host l doc₁ = .ok t' := by
    rw [← ht', Host.opening, Host.opening, htext, hmod, backing_eq hhandle]
    rfl
  obtain ⟨set, hset⟩ := hu.converters d hopened doc l hshows.holds hl
  obtain ⟨doc₂, hshows₂, htext₂⟩ := (hmet d hopened).shows hh hdoc₁
    (hclosed.trans hshows.alive) (hgrammar ▸ hl) hset (hmodified' d) (hu.load d) hreload
    (hhandle ▸ hbare) hopening
  exact ⟨doc₂, t, hshows₂, ht, by rw [ht', htext₂]⟩

end Separate

/-- Switching the lenient mode off and on again does to lenient documents what is expected exactly
if the canonical text of each one that is modified is written alike in both dialects. -/
theorem keepsLenient_iff (hI : h.toHost.Respects I)
    (hmodified : ∀ d s, I s → (h.checkModified d s).1 = .ok ())
    (hopen : ∀ p s, I s → I (h.openFile p s).2) (hpresent : ∀ n s, I s → I (h.isPresent n s).2)
    (hh : h.toHost.Separate alike fun _ => True) (hreload : c.reload = true) (hs : I s)
    {deeds : List (Deed σ)} (helsewhere : ∀ a, .elsewhere a ∈ deeds → ∀ s, I s → I (a s).2)
    (hu : Unfailing h c (workOn h c (fresh s) deeds)) :
    KeepsLenient h c (workOn h c (fresh s) deeds) ↔
      ∀ d doc l, Shows (workOn h c (fresh s) deeds) d doc l → doc.modified = true →
        h.normalized (workOn h c (fresh s) deeds).editor.host l doc.text
          = h.converted (workOn h c (fresh s) deeds).editor.host l .toCanonical doc.text := by
  have hw : Tended I c (workOn h c (fresh s) deeds) :=
    Tended.workOn hI hmodified hopen hpresent helsewhere (tended_fresh hs)
  generalize workOn h c (fresh s) deeds = w at hu hw ⊢
  obtain ⟨w', hr, hall⟩ := restart_ok hh hI hmodified hreload hw hu
  constructor
  · rintro ⟨w'', hr', hkept⟩ d doc l hshows hmod
    obtain rfl := (Prod.mk.inj (hr.symm.trans hr')).2
    obtain ⟨doc', t, hshows', ht, ht'⟩ := hall d doc l hshows
    obtain ⟨doc'', hshows'', hnormalized, -⟩ := hkept d doc l hshows
    obtain rfl := hshows'.holds.unique hshows''.holds
    -- the canonical text is taken to be lenient as it is
    rw [Host.restored, hmod, if_pos rfl] at ht
    rw [Host.opening_text, hmod, if_pos rfl] at ht'
    rw [hnormalized hmod, ht, ht']
  · intro hsame
    refine ⟨w', hr, fun d doc l hshows => ?_⟩
    obtain ⟨doc', t, hshows', ht, ht'⟩ := hall d doc l hshows
    refine ⟨doc', hshows', fun hmod => ?_, fun n hmod hn => ?_⟩
    · rw [Host.restored, hmod, if_pos rfl] at ht
      rw [Host.opening_text, hmod, if_pos rfl] at ht'
      rw [hsame d doc l hshows hmod, ht, ht']
    · rw [Host.opening_text, hmod, if_neg Bool.false_ne_true, hn] at ht'
      exact ht'

/-! ## Two scripts on disk -/

/-- The usual settings. -/
def scriptSettings : ControllerSettings := ⟨ControllerSettings.standardScopes, true⟩

/-- A disk with two scripts. -/
def scriptFiles : Directory :=
  .ofTree ⟨[([['p']], .file [0x31, 0x3b, 0x0a]), ([['q']], .file [0x32, 0x3b, 0x0a])], []⟩
    (Recipe.standard 2)

/-- Both scripts have been opened in the lenient dialect, and the second one has been edited. -/
def twoScripts (t : Text) : Workspace Directory ConverterSet :=
  workOn Rehearsal.Workroom.host scriptSettings (fresh scriptFiles)
    [.activate, .openDocument (some "/p") (some ⟨"source.js.lenient", "Lenient JavaScript"⟩) [],
      .openDocument (some "/q") (some ⟨"source.js.lenient", "Lenient JavaScript"⟩) [], .edit 1 t]

/-- A script that is written alike in both dialects, and one that is not. -/
def scriptEdits : List Text := [Text.ofString "{}\n", Text.ofString "3\n"]

/-- What matters of a document here: its language, its file, and its text if it is modified. -/
def scriptState (doc : Document ConverterSet) : Option String × Option Nat × Option Text :=
  (scriptSettings.languageOf doc.grammar, doc.file?, if doc.modified then some doc.text else none)

/-- Both scripts are lenient, the first one as it is stored and the second one edited. -/
theorem scriptState_twoScripts : ∀ t ∈ scriptEdits,
    (twoScripts t).editor.documents.map scriptState
      = [(some "js", some 0, none), (some "js", some 1, some t)] := by
  decide +kernel

/-- Which of the two scripts is modified, and with which text. -/
theorem holds_twoScripts (ht : t ∈ scriptEdits) {doc : Document ConverterSet}
    (hdoc : (twoScripts t).editor.Holds d doc) :
    scriptSettings.languageOf doc.grammar = some "js" ∧ doc.file? = some d ∧
      (d = 0 ∧ doc.modified = false ∨ d = 1 ∧ doc.modified = true ∧ doc.text = t) := by
  have hstate : ((twoScripts t).editor.documents.map scriptState)[d]? = some (scriptState doc) := by
    rw [List.getElem?_map, show (twoScripts t).editor.documents[d]? = some doc from hdoc]
    rfl
  -- the state says of both documents all that is needed
  rw [scriptState_twoScripts t ht] at hstate
  match d with
  | 0 =>
    obtain ⟨hgrammar, hfile, hmodified⟩ : _ ∧ _ ∧ _ := by simpa [scriptState] using hstate
    exact ⟨hgrammar.symm, hfile.symm, Or.inl ⟨rfl, hmodified⟩⟩
  | 1 =>
    obtain ⟨hgrammar, hfile, hmodified, htext⟩ : _ ∧ _ ∧ _ ∧ _ := by
      simpa [scriptState] using hstate
    exact ⟨hgrammar.symm, hfile.symm, Or.inr ⟨rfl, hmodified, htext.symm⟩⟩
  | d + 2 => simp at hstate

/-- Both scripts are shown as what they are. -/
theorem shows_twoScripts (ht : t ∈ scriptEdits) {doc : Document ConverterSet}
    (hshows : Shows (twoScripts t) d doc l) : l = "js" := by
  have htracked : ∀ t ∈ scriptEdits, (twoScripts t).editor.tracked = [(0, "js"), (1, "js")] := by
    decide +kernel
  have hl := hshows.tracked
  rw [htracked t ht] at hl
  obtain ⟨-, -, ⟨rfl, -⟩ | ⟨rfl, -⟩⟩ := holds_twoScripts ht hshows.holds
  · exact (Option.some.inj hl).symm
  · exact (Option.some.inj hl).symm

/-- Whatever is converted or read is converted or read without a failure. -/
theorem unfailing_twoScripts (ht : t ∈ scriptEdits) :
    Unfailing Rehearsal.Workroom.host scriptSettings (twoScripts t) := by
  have hset : ∀ t ∈ scriptEdits,
      (Rehearsal.Workroom.host.converters "js" (twoScripts t).editor.host).1.isOk = true := by
    decide +kernel
  have hcanonical : ∀ t ∈ scriptEdits,
      (Rehearsal.Workroom.host.converted (twoScripts t).editor.host "js" .toCanonical t).isOk
        = true := by
    decide +kernel
  have hshown : ∀ t ∈ scriptEdits,
      (Rehearsal.Workroom.host.shown (twoScripts t).editor.host "js" 0).isOk = true := by
    decide +kernel
  refine ⟨fun d _ doc l hdoc hl => ?_, fun _ => rfl, fun _ => rfl,
    fun d doc l hshows hmodified => ?_, fun d doc l n hshows hmodified hn => ?_⟩
  · obtain ⟨hgrammar, -⟩ := holds_twoScripts ht hdoc
    obtain rfl := Option.some.inj (hgrammar.symm.trans hl)
    exact exists_of_isOk (hset t ht)
  · obtain rfl := shows_twoScripts ht hshows
    obtain ⟨-, -, ⟨-, hfalse⟩ | ⟨-, -, htext⟩⟩ := holds_twoScripts ht hshows.holds
    · -- the first script is not modified, so that it is the second one
      rw [hfalse] at hmodified
      contradiction
    · rw [htext]
      exact exists_of_isOk (hcanonical t ht)
  · obtain rfl := shows_twoScripts ht hshows
    obtain ⟨-, hfile, ⟨rfl, -⟩ | ⟨-, htrue, -⟩⟩ := holds_twoScripts ht hshows.holds
    · rw [Host.backing, hfile, Option.filter_eq_some_iff] at hn
      obtain rfl := Option.some.inj hn.1
      exact exists_of_isOk (hshown t ht)
    · -- the second script is modified, so that it is the first one
      rw [htrue] at hmodified
      contradiction

/-- A block is written alike in both dialects: both scripts are lenient as before, the first one as
its file is shown. -/
theorem keepsLenient_twoScripts :
    KeepsLenient Rehearsal.Workroom.host scriptSettings (twoScripts (Text.ofString "{}\n")) ∧
      (restart Rehearsal.Workroom.host scriptSettings
        (twoScripts (Text.ofString "{}\n"))).2.editor.documents.map Document.text
          = [Text.ofString "1\n", Text.ofString "{}\n"] := by
  have hnormalized : (Rehearsal.Workroom.host.normalized
      (twoScripts (Text.ofString "{}\n")).editor.host "js" (Text.ofString "{}\n")).toOption
        = some (Text.ofString "{}\n") := by decide +kernel
  have hcanonical : (Rehearsal.Workroom.host.converted
      (twoScripts (Text.ofString "{}\n")).editor.host "js" .toCanonical
        (Text.ofString "{}\n")).toOption = some (Text.ofString "{}\n") := by decide +kernel
  have hedit : Text.ofString "{}\n" ∈ scriptEdits := List.mem_cons_self
  refine ⟨(keepsLenient_iff (I := fun _ => True) Rehearsal.Workroom.host.toHost.respects_true
    (fun _ _ _ => rfl) (fun _ _ _ => trivial) (fun _ _ _ => trivial) Directory.separate rfl trivial
    (fun _ _ _ _ => trivial) (unfailing_twoScripts hedit)).mpr fun d doc l hshows hmodified => ?_,
    by decide +kernel⟩
  obtain rfl := shows_twoScripts hedit hshows
  obtain ⟨-, -, ⟨-, hfalse⟩ | ⟨-, -, htext⟩⟩ := holds_twoScripts hedit hshows.holds
  · -- only the second script is modified
    rw [hfalse] at hmodified
    contradiction
  · rw [htext]
    exact (eq_ok_of_toOption hnormalized).trans (eq_ok_of_toOption hcanonical).symm

/-- A text with a semicolon left out comes back with the semicolon, in a document that counts as
lenient, although nothing fails. -/
theorem not_keepsLenient_twoScripts :
    Unfailing Rehearsal.Workroom.host scriptSettings (twoScripts (Text.ofString "3\n")) ∧
      ¬ KeepsLenient Rehearsal.Workroom.host scriptSettings (twoScripts (Text.ofString "3\n")) ∧
      (restart Rehearsal.Workroom.host scriptSettings
        (twoScripts (Text.ofString "3\n"))).2.editor.documents.map Document.text
          = [Text.ofString "1\n", Text.ofString "3;\n"] ∧
      (restart Rehearsal.Workroom.host scriptSettings
        (twoScripts (Text.ofString "3\n"))).2.editor.tracked = [(0, "js"), (1, "js")] := by
  have hedit : Text.ofString "3\n" ∈ scriptEdits := List.mem_cons_of_mem _ List.mem_cons_self
  have htexts : (restart Rehearsal.Workroom.host scriptSettings
      (twoScripts (Text.ofString "3\n"))).2.editor.documents.map Document.text
        = [Text.ofString "1\n", Text.ofString "3;\n"] := by decide +kernel
  refine ⟨unfailing_twoScripts hedit, ?_, htexts, by decide +kernel⟩
  rintro ⟨w', hr, hkept⟩
  obtain ⟨doc, hdoc⟩ : ∃ doc, (twoScripts (Text.ofString "3\n")).editor.Holds 1 doc :=
    Option.isSome_iff_exists.mp (by decide +kernel)
  obtain ⟨-, -, ⟨hfalse, -⟩ | ⟨-, hmodified, htext⟩⟩ := holds_twoScripts hedit hdoc
  · contradiction
  have halive : doc.closed = false := by
    have hclosed : (twoScripts (Text.ofString "3\n")).editor.documents[1]?.map Document.closed
        = some false := by decide +kernel
    have hsome : (twoScripts (Text.ofString "3\n")).editor.documents[1]? = some doc := hdoc
    rw [hsome] at hclosed
    exact Option.some.inj hclosed
  obtain ⟨doc', hshows', hnormalized, -⟩ := hkept 1 doc "js" ⟨hdoc, halive, by decide +kernel⟩
  -- the text is the canonical one
  rw [hr] at htexts
  have hcanonical : doc'.text = Text.ofString "3;\n" := by
    have hsecond := congrArg (·[1]?) htexts
    simp only [List.getElem?_map] at hsecond
    rw [show w'.editor.documents[1]? = some doc' from hshows'.holds] at hsecond
    exact Option.some.inj hsecond
  have hexpected : (Rehearsal.Workroom.host.normalized
      (twoScripts (Text.ofString "3\n")).editor.host "js" (Text.ofString "3\n")).toOption
        = some (Text.ofString "3\n") := by decide +kernel
  have hlenient := hnormalized hmodified
  rw [htext, eq_ok_of_toOption hexpected, hcanonical] at hlenient
  exact absurd (Except.ok.inj hlenient) (by decide)

end Workspace

end Dialects

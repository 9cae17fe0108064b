import Dialects.Proofs.Editor.Agreement
import Dialects.Proofs.Editor.Deactivation

/-!
# Documents in attendance

While the lenient mode is on, the controller follows each document through one observation at most.
A document that counts as lenient is then followed, and it is shown in the language of its grammar
(`Tuned`): when the grammar changes, the one observation hears of it, and whatever it does last
leaves the document canonical or in the language of the grammar that the document has then
(`matches_setGrammar`). What happens to one document makes no difference to the others (`Around`).

Where documents stand meanwhile is said by `Tidy`.

## Main definitions

* `Tidy`: where documents stand;
* `Tuned`: those that count as lenient are followed and have the right grammar;
* `Orderly`: both, and no document counts as lenient while the mode is off.

## Main results

* `Tuned.changeGrammar`, `Tuned.observe`, `Tuned.endDocument`: what keeps documents tuned;
* `Orderly.changeGrammar` and the like: what keeps everything in order.
-/

namespace Dialects

/-- Whether an observer is the controller. -/
def Observer.isController : Observer → Bool
  | .controller _ => true
  | .listener .. => false

namespace Editor

open Dialects.Action

variable {σ κ : Type} {I : σ → Prop} {h : Host σ κ} {c : ControllerSettings}
  {e e' e₀ e₁ e₂ : Editor σ κ} {d n N : Nat} {doc doc' : Document κ} {observers : List Observer}
  {active : Bool} {opened : List Nat}

/-! ## Where documents stand -/

/-- The handle, if there is one, is a file itself. -/
def IsBare (handle : Option (Handle (Binding κ))) : Prop :=
  ∀ inner, handle = some inner → ∃ n, inner = .file n

/-- Without its mapping a file is still a file. -/
theorem IsBare.unmapped {handle : Option (Handle (Binding κ))} (h : IsBare handle) :
    IsBare (handle.map Handle.unmapped) := by
  intro inner hinner
  obtain ⟨inner', hinner', rfl⟩ := Option.map_eq_some_iff.mp hinner
  obtain ⟨n, rfl⟩ := h inner' hinner'
  exact ⟨n, rfl⟩

/-- The controller follows the document through one observation at most, and only while the lenient
mode is active; nobody hears of its end who does not hear of its grammar. As long as the document is
not closed, it is open if it is followed, and its handle is a file, or is mapped from one if it
counts as lenient. -/
structure Tidy (active : Bool) (opened : List Nat) (d : Nat) (doc : Document κ) (lenient : Bool) :
    Prop where
  single : doc.grammarObservers.callbacks.countP Observer.isController ≤ 1
  active : ∀ n, .controller n ∈ doc.grammarObservers.callbacks → active = true
  ended : ∀ n, doc.endObservers.callbacks.count (.controller n)
    ≤ doc.grammarObservers.callbacks.count (.controller n)
  opened : ∀ n, .controller n ∈ doc.grammarObservers.callbacks → doc.closed = false → d ∈ opened
  bare : doc.closed = false → lenient = false → IsBare doc.handle
  mapped : doc.closed = false → IsBare (doc.handle.map Handle.unmapped)

/-- Of a tidy document each observation is kept once. -/
theorem once_tidy : Once (κ := κ) (Tidy active opened) := by
  intro d doc t hplaced n
  refine Nat.le_trans (List.countP_mono_left fun x _ hx => ?_) hplaced.single
  rw [beq_iff_eq.mp hx]
  rfl

/-- A document stays tidy when its handle is mapped or unmapped, and when an observation ends. -/
theorem placing_tidy : Placing h I N (Tidy active opened) where
  congr ht hhandle hclosed hgrammar hend := by
    refine ⟨?_, ?_, ?_, ?_, ?_, ?_⟩
    · rw [hgrammar]
      exact ht.single
    · rw [hgrammar]
      exact ht.active
    · rw [hend, hgrammar]
      exact ht.ended
    · rw [hgrammar, hclosed]
      exact ht.opened
    · rw [hclosed, hhandle]
      exact ht.bare
    · rw [hclosed, hhandle]
      exact ht.mapped
  unsubscribed n ht := by
    refine ⟨?_, fun m hm => ht.active m (List.mem_of_mem_erase hm), fun m => ?_,
      fun m hm => ht.opened m (List.mem_of_mem_erase hm), ht.bare, ht.mapped⟩
    · exact Nat.le_trans (List.erase_sublist.countP_le) ht.single
    · rw [unfollowed, Emitter.callbacks_unsubscribe, Emitter.callbacks_unsubscribe,
        List.count_erase, List.count_erase]
      exact Nat.sub_le_sub_right (ht.ended m) _
  mapped binding _ _ ht hinner _ := by
    refine ⟨ht.single, ht.active, ht.ended, ht.opened, fun _ hfalse => by contradiction,
      fun hclosed => ?_⟩
    have hbare := ht.bare hclosed rfl
    rw [hinner] at hbare
    exact hbare
  unbacked _ _ ht _ :=
    ⟨ht.single, ht.active, ht.ended, ht.opened, fun _ hfalse => by contradiction, ht.mapped⟩
  unmapped _ ht :=
    ⟨ht.single, ht.active, ht.ended, ht.opened, fun hclosed _ => ht.mapped hclosed,
      fun hclosed => (ht.mapped hclosed).unmapped⟩

/-- Nobody follows the document for the controller. -/
theorem countP_eq_zero (hfree : ∀ n, .controller n ∉ observers) :
    observers.countP Observer.isController = 0 := by
  refine List.countP_eq_zero.mpr fun x hx hcontroller => ?_
  cases x with
  | controller n => exact hfree n hx
  | listener id name => contradiction

/-- The controller may begin to follow an open document that it does not follow. -/
theorem welcoming_tidy (hopened : d ∈ opened) (hfree : ∀ n, .controller n ∉ observers) :
    Welcoming (κ := κ) (Tidy true opened) d observers := by
  rintro doc t n rfl - ht
  refine ⟨?_, fun _ _ => rfl, fun m => ?_, fun _ _ _ => hopened, ht.bare, ht.mapped⟩
  · rw [followed, Emitter.callbacks_subscribe, List.countP_append, countP_eq_zero hfree]
    exact Nat.le_refl 1
  · rw [followed, Emitter.callbacks_subscribe, Emitter.callbacks_subscribe, List.count_append,
      List.count_append]
    exact Nat.add_le_add_right (ht.ended m) _

/-- What happens to a document at its end leaves it tidy. -/
theorem ending_tidy (d : Nat) : Ending (κ := κ) (Tidy active opened) d where
  closed ht := ⟨ht.single, ht.active, ht.ended, fun _ _ hfalse => by contradiction,
    fun hfalse => by contradiction, fun hfalse => by contradiction⟩
  forgotten hclosed ht := ⟨ht.single, ht.active, ht.ended, ht.opened,
    fun hfalse => absurd (hclosed.symm.trans hfalse) (by simp), ht.mapped⟩
  deserted ht := ⟨Nat.zero_le 1, fun _ hn => absurd hn List.not_mem_nil, fun _ => Nat.le_refl 0,
    fun _ hn => absurd hn List.not_mem_nil, ht.bare, ht.mapped⟩

/-! ## Changes of grammar -/

/-- Nothing has happened but to this document. -/
structure Around (d : Nat) (e e' : Editor σ κ) : Prop where
  count : e'.documents.length = e.documents.length
  documents : ∀ d' ≠ d, e'.documents[d']? = e.documents[d']?
  tracked : ∀ d' ≠ d, e'.tracked.lookup d' = e.tracked.lookup d'

theorem Around.refl (d : Nat) (e : Editor σ κ) : Around d e e :=
  ⟨rfl, fun _ _ => rfl, fun _ _ => rfl⟩

theorem Around.trans (h₁ : Around d e e₁) (h₂ : Around d e₁ e₂) : Around d e e₂ :=
  ⟨h₂.count.trans h₁.count, fun d' hd => (h₂.documents d' hd).trans (h₁.documents d' hd),
    fun d' hd => (h₂.tracked d' hd).trans (h₁.tracked d' hd)⟩

/-- A step of this document that leaves the other entries of the table alone happens to no other
document. -/
theorem Around.of_shape {t : List (Nat × String)} (hshape : Shape I e d doc' t e')
    (ht : ∀ d' ≠ d, t.lookup d' = e.tracked.lookup d') : Around d e e' := by
  refine ⟨?_, fun d' hd => ?_, fun d' hd => ?_⟩
  · rw [hshape.documents, List.length_set]
  · rw [hshape.documents, List.getElem?_set_ne (Ne.symm hd)]
  · rw [hshape.tracked, ht d' hd]

/-- What only the host does happens to no document. -/
theorem Around.of_hostOnly (d : Nat) (hhostOnly : HostOnly I e e') : Around d e e' :=
  ⟨congrArg List.length hhostOnly.documents, fun _ _ => congrArg (·[_]?) hhostOnly.documents,
    fun _ _ => congrArg (List.lookup _) hhostOnly.tracked⟩

/-- Nothing has happened but to this document, and it has its observers still. Those of them that
are the controller follow this document. -/
structure Attended (e₀ : Editor σ κ) (d : Nat) (doc₀ : Document κ) (e : Editor σ κ) : Prop
    extends Around d e₀ e where
  holds : ∃ doc, e.Holds d doc ∧ doc.grammarObservers = doc₀.grammarObservers ∧
    doc.closed = doc₀.closed
  known : ∀ n, .controller n ∈ doc₀.grammarObservers.callbacks → e.documentOf n = some d

variable {doc₀ : Document κ}

/-- The observers of the document are in place. -/
theorem Attended.attached (ha : Attended e₀ d doc₀ e) :
    Attached d doc₀.grammarObservers.callbacks e := by
  obtain ⟨doc, hdoc, hobservers, -⟩ := ha.holds
  refine ⟨⟨doc, hdoc, congrArg Emitter.callbacks hobservers⟩, fun n o hn ho => ?_⟩
  have hdocument := ha.known n hn
  rw [documentOf, ho] at hdocument
  exact Option.some.inj hdocument

/-- A step of the document keeps its observers if it leaves the fields alone that it has to. -/
theorem Attended.of_shape {t : List (Nat × String)} (ha : Attended e₀ d doc₀ e)
    (hdoc : e.Holds d doc) (hshape : Shape I e d doc' t e') (hakin : doc.Akin doc')
    (ht : ∀ d' ≠ d, t.lookup d' = e.tracked.lookup d') : Attended e₀ d doc₀ e' := by
  obtain ⟨doc₁, hdoc₁, hobservers, hclosed⟩ := ha.holds
  obtain rfl := hdoc.unique hdoc₁
  refine ⟨ha.toAround.trans (.of_shape hshape ht), ⟨doc', hshape.holds hdoc, ?_, ?_⟩,
    fun n hn => ?_⟩
  · exact hakin.grammarObservers.trans hobservers
  · exact hakin.closed.trans hclosed
  · rw [documentOf, hshape.observations]
    exact ha.known n hn

/-- What the host does keeps the observers in place. -/
theorem Attended.of_hostOnly (ha : Attended e₀ d doc₀ e) (hhostOnly : HostOnly I e e') :
    Attended e₀ d doc₀ e' := by
  obtain ⟨doc, hdoc, -⟩ := ha.holds
  exact ha.of_shape hdoc ((Shape.refl hdoc).hostOnly hhostOnly) (.refl doc) fun _ _ => rfl

/-- Turning the lenient mode off keeps the observers in place. -/
theorem Attended.disable (ha : Attended e₀ d doc₀ e) :
    Attended e₀ d doc₀ (disable h c d e).2 := by
  obtain ⟨doc, hdoc, -⟩ := ha.holds
  obtain ⟨doc', hakin, hshape⟩ := exists_shape_disable h.respects_true c hdoc trivial
  exact ha.of_shape hdoc hshape hakin fun d' hd => lookup_filter_of_ne hd e.tracked

/-- Turning a document lenient keeps its observers in place. -/
theorem Attended.turnLenient (ha : Attended e₀ d doc₀ e) (hfree : e.tracked.lookup d = none)
    (previous : Option Grammar) (l : String) :
    Attended e₀ d doc₀ (turnLenient h c d previous l e).2 := by
  obtain ⟨doc, hdoc, -⟩ := ha.holds
  obtain ⟨e', f, hhostOnly, hr, -⟩ | ⟨e', f, hhostOnly, hr⟩ |
      ⟨e', doc', e₁, -, hr, hshape, hshown⟩ :=
    turnLenient_ends h.respects_true c hdoc trivial hfree previous l
  · -- a document that has not been turned lenient is the one that it was
    rw [hr]
    exact ha.of_hostOnly hhostOnly
  · rw [hr]
    exact ha.of_hostOnly hhostOnly
  · rw [hr]
    exact ha.of_shape hdoc hshape hshown.akin fun d' hd => lookup_append_of_ne hd e.tracked l

/-- What keeps a document attended. -/
theorem kept_attended (h : Host σ κ) (c : ControllerSettings) (e₀ : Editor σ κ) (d : Nat)
    (doc₀ : Document κ) : Kept h c d doc₀.grammarObservers.callbacks (Attended e₀ d doc₀) where
  attached _ ha := ha.attached
  grammar _ e ha doc hdoc := by
    obtain ⟨doc₁, hdoc₁, hobservers, hclosed⟩ := ha.holds
    obtain rfl := hdoc.unique hdoc₁
    refine ⟨ha.toAround.trans (.of_shape (I := fun _ => True)
      ((Shape.refl hdoc).put _) fun _ _ => rfl), ?_, ha.known⟩
    exact ⟨_, hdoc.put _, hobservers, hclosed⟩
  mark _ _ _ ha := ⟨⟨ha.count, ha.documents, ha.tracked⟩, ha.holds, ha.known⟩
  noted n g e ha := by
    refine ⟨⟨ha.count, ha.documents, ha.tracked⟩, ha.holds, ?_⟩
    rw [documentOf_noted]
    exact ha.known
  disable _ ha := ha.disable
  lenient previous l _ ha hfree := ha.turnLenient hfree previous l

/-- If the document counts as lenient, then in the language of its grammar. -/
def Matches (c : ControllerSettings) (d : Nat) (e : Editor σ κ) : Prop :=
  ∀ doc l, e.Holds d doc → e.tracked.lookup d = some l → c.languageOf doc.grammar = some l

/-- A document that does not count as lenient matches any grammar. -/
theorem matches_of_free (hfree : e.tracked.lookup d = none) : Matches c d e := by
  intro doc l _ hl
  rw [hfree] at hl
  contradiction

/-- Besides the one observation there are only listeners. -/
theorem exists_listeners (hn : .controller n ∈ observers)
    (hsingle : observers.countP Observer.isController ≤ 1) :
    ∃ before after, observers = before ++ .controller n :: after ∧ Listeners before ∧
      Listeners after := by
  obtain ⟨before, after, rfl⟩ := List.append_of_mem hn
  rw [List.countP_append, List.countP_cons_of_pos rfl] at hsingle
  refine ⟨before, after, rfl, fun m hm => ?_, fun m hm => ?_⟩
  · -- a second observation on either side would be one too many
    have hpos : 0 < before.countP Observer.isController := List.countP_pos_iff.mpr ⟨_, hm, rfl⟩
    omega
  · have hpos : 0 < after.countP Observer.isController := List.countP_pos_iff.mpr ⟨_, hm, rfl⟩
    omega

section Revert

variable {revert : Nat → Grammar → Action (Editor σ κ) Unit}
  (hrevert : ∀ g e, Attended e₀ d doc₀ e → e.tracked.lookup d = none →
    Matches c d (revert d g e).2)

include hrevert

/-- A document that is turned lenient matches its grammar, whatever is refused on the way. -/
theorem matches_enable (ha : Attended e₀ d doc₀ e) (hdoc : e.Holds d doc)
    (hfree : e.tracked.lookup d = none) (previous : Option Grammar) {l : String}
    (hl : c.languageOf doc.grammar = some l) :
    Matches c d (enable h c revert d previous l e).2 := by
  rw [enable_of_free hfree, Action.bind_apply]
  obtain ⟨e', f, hhostOnly, hr, -⟩ | ⟨e', f, hhostOnly, hr⟩ |
      ⟨e', doc', e₁, -, hr, hshape, hshown⟩ :=
    turnLenient_ends h.respects_true c hdoc trivial hfree previous l
  · rw [hr]
    exact matches_of_free (hhostOnly.tracked ▸ hfree)
  · -- the grammar is given back, which is a change of grammar of its own
    have hfree' : e'.tracked.lookup d = none := hhostOnly.tracked ▸ hfree
    rw [hr]
    cases previous with
    | none => exact matches_of_free hfree'
    | some p =>
      have hback := hrevert p e' (ha.of_hostOnly hhostOnly) hfree'
      show Matches c d ((revert d p >>= fun _ => pure (Outcome.failure f (some p))) e').2
      rw [Action.bind_apply]
      rcases hr' : revert d p e' with ⟨f' | ⟨⟩, e₂⟩
      · rw [hr'] at hback
        exact hback
      · rw [hr'] at hback
        exact hback
  · rw [hr]
    intro doc₁ l' hdoc₁ hl'
    obtain rfl := (hshape.holds hdoc).unique hdoc₁
    replace hl' : e'.tracked.lookup d = some l' := hl'
    rw [hshape.tracked, lookup_append_self hfree l] at hl'
    rw [hshown.akin.grammar, hl, hl']

/-- Once a change of grammar is handled, the document matches the grammar that it has then. -/
theorem matches_handleGrammar (ha : Attended e₀ d doc₀ e) (hdoc : e.Holds d doc)
    (previous : Option Grammar) :
    Matches c d (handleGrammar h c revert d doc.grammar previous e).2 := by
  cases hl : c.languageOf doc.grammar with
  | none =>
    rw [handleGrammar_of_none hl]
    exact matches_of_free (lookup_disable c h d e)
  | some l =>
    by_cases hsame : e.tracked.lookup d = some l
    · rw [handleGrammar_of_same hl hsame]
      intro doc' l' hdoc' hl'
      obtain rfl := hdoc.unique hdoc'
      replace hl' : e.tracked.lookup d = some l' := hl'
      rw [hl, ← hsame, hl']
    -- The document is turned canonical, and lenient again in another language.
    rw [handleGrammar_of_other hl hsame, Action.bind_apply]
    obtain ⟨doc', hakin, hshape⟩ := exists_shape_disable h.respects_true c hdoc trivial
    have ha' := ha.disable (h := h) (c := c)
    have hdoc' := hshape.holds hdoc
    have hfree' := lookup_disable c h d e
    rcases hr : disable h c d e with ⟨f | outcome, e'⟩
    · rw [hr] at hfree'
      exact matches_of_free hfree'
    · rw [hr] at ha' hfree' hdoc'
      rw [← hakin.grammar] at hl
      exact matches_enable hrevert ha' hdoc' hfree' previous hl

/-- The same through the observation of the document, which takes note of the grammar then. -/
theorem matches_follow (ha : Attended e₀ d doc₀ e) (hdoc : e.Holds d doc)
    (hn : e.documentOf n = some d) :
    Matches c d (follow h c revert n doc.grammar e).2 := by
  obtain ⟨o, ho, rfl⟩ := Option.map_eq_some_iff.mp hn
  rw [follow, Action.bind_apply, Action.ask_apply]
  simp only [ho, Action.bind_apply]
  have hhandled := matches_handleGrammar (h := h) (c := c) hrevert ha hdoc o.previous
  rcases hr : handleGrammar h c revert o.document doc.grammar o.previous e with ⟨f | outcome, e'⟩
  · rw [hr] at hhandled
    exact hhandled
  rw [hr] at hhandled
  cases hdoc' : e'.documents[o.document]? with
  | none =>
    simp only [document_of_none hdoc']
    exact hhandled
  | some doc' =>
    simp only [document_apply hdoc']
    exact hhandled

/-- All observers are told of the grammar: some listeners, the controller, and other listeners. -/
theorem matches_forM (hsingle : doc₀.grammarObservers.callbacks.countP Observer.isController ≤ 1)
    (ha : Attended e₀ d doc₀ e) (hdoc : e.Holds d doc)
    (hfollowed : e.tracked.lookup d ≠ none →
      ∃ n, .controller n ∈ doc₀.grammarObservers.callbacks) :
    Matches c d ((doc₀.grammarObservers.callbacks.forM fun
      | .controller n => follow h c revert n doc.grammar
      | .listener _ name => mark name (.words [doc.grammar.scope]) :
        Action (Editor σ κ) PUnit) e).2 := by
  by_cases hcontroller : ∃ n, .controller n ∈ doc₀.grammarObservers.callbacks
  · obtain ⟨n, hn⟩ := hcontroller
    obtain ⟨before, after, hsplit, hbefore, hafter⟩ := exists_listeners hn hsingle
    rw [hsplit, forM_tell doc.grammar (fun _ _ => rfl) hbefore]
    have ha' : Attended e₀ d doc₀ (told doc.grammar before e) :=
      ⟨⟨ha.count, ha.documents, ha.tracked⟩, ha.holds, ha.known⟩
    have hfollow := matches_follow (h := h) (c := c) hrevert ha' hdoc (ha'.known n hn)
    show Matches c d ((follow h c revert n doc.grammar >>= fun _ => after.forM _) _).2
    rw [Action.bind_apply]
    rcases hr : follow h c revert n doc.grammar (told doc.grammar before e) with ⟨f | ⟨⟩, e'⟩
    · rw [hr] at hfollow
      exact hfollow
    · rw [hr] at hfollow
      simp only []
      rw [forM_tell_all doc.grammar (fun _ _ => rfl) hafter]
      exact hfollow
  · have hlisteners : Listeners doc₀.grammarObservers.callbacks :=
      fun n hn => hcontroller ⟨n, hn⟩
    rw [forM_tell_all doc.grammar (fun _ _ => rfl) hlisteners]
    -- listeners do not make it count as lenient
    refine matches_of_free ?_
    exact Classical.not_not.mp fun hne => hcontroller (hfollowed hne)

end Revert

/-- A change of grammar leaves a document that is followed through one observation in the language
of its grammar or canonical, however deep changes are nested and whatever fails. -/
theorem matches_setGrammar
    (hsingle : doc₀.grammarObservers.callbacks.countP Observer.isController ≤ 1)
    (depth : Nat) (g : Grammar) (ha : Attended e₀ d doc₀ e) (hmatches : Matches c d e)
    (hfollowed : e.tracked.lookup d ≠ none →
      ∃ n, .controller n ∈ doc₀.grammarObservers.callbacks) :
    Matches c d (setGrammar h c depth d g e).2 := by
  induction depth generalizing g e with
  | zero => exact hmatches
  | succ depth ih =>
    obtain ⟨doc, hdoc, hobservers, -⟩ := ha.holds
    rw [setGrammar, Action.bind_apply, document_apply hdoc]
    simp only []
    split
    · exact hmatches
    rw [Action.bind_apply, modify_apply hdoc, congrArg Emitter.callbacks hobservers]
    have ha' := (kept_attended h c e₀ d doc₀).grammar g e ha doc hdoc
    -- a grammar is only given back while the document is canonical, so that it matches anyhow
    have hfree (g' : Grammar) (e' : Editor σ κ) (he' : Attended e₀ d doc₀ e')
        (hfree' : e'.tracked.lookup d = none) : Matches c d (setGrammar h c depth d g' e').2 :=
      ih g' he' (matches_of_free hfree') fun hne => absurd hfree' hne
    have hall := matches_forM (h := h) hfree hsingle ha' (hdoc.put { doc with grammar := g })
      hfollowed
    simp only [] at hall ⊢
    exact hall

/-! ## Documents that match their grammars -/

/-- The documents that count as lenient exist. As long as they are not closed, they are followed and
match their grammars. -/
structure Tuned (c : ControllerSettings) (e : Editor σ κ) : Prop where
  known : ∀ d, e.isLenient d = true → d < e.documents.length
  attended : ∀ d doc, e.Holds d doc → doc.closed = false → e.isLenient d = true →
    ∃ n, .controller n ∈ doc.grammarObservers.callbacks
  matching : ∀ d doc l, e.Holds d doc → doc.closed = false → e.tracked.lookup d = some l →
    c.languageOf doc.grammar = some l

/-- A document with an entry in the table counts as lenient. -/
theorem isLenient_of_lookup {l : String} (hl : e.tracked.lookup d = some l) :
    e.isLenient d = true := by
  rw [isLenient, hl]
  rfl

/-- A document that does not count as lenient has no entry in the table. -/
theorem lookup_of_isLenient (hfree : e.isLenient d = false) : e.tracked.lookup d = none := by
  simpa [isLenient] using hfree

/-- Something has happened to one document. -/
theorem Tuned.around (ht : Tuned c e) (ha : Around d e e') (hdoc : e'.Holds d doc)
    (hfollowed : doc.closed = false → e'.isLenient d = true →
      ∃ n, .controller n ∈ doc.grammarObservers.callbacks)
    (hmatching : ∀ l, doc.closed = false → e'.tracked.lookup d = some l →
      c.languageOf doc.grammar = some l) : Tuned c e' := by
  have hsame {d' : Nat} {doc' : Document κ} (hd : d' ≠ d) (hdoc' : e'.Holds d' doc') :
      e.Holds d' doc' := (ha.documents d' hd).symm.trans hdoc'
  -- About the one document it is known how it is now; all others are as they were.
  refine ⟨fun d' hlenient => ?_, fun d' doc' hdoc' hclosed hlenient => ?_,
    fun d' doc' l hdoc' hclosed hl => ?_⟩
  · by_cases hd : d' = d
    · rw [hd]
      exact (List.getElem?_eq_some_iff.mp hdoc).choose
    · rw [isLenient_congr (ha.tracked d' hd)] at hlenient
      rw [ha.count]
      exact ht.known d' hlenient
  · by_cases hd : d' = d
    · subst hd
      obtain rfl := hdoc.unique hdoc'
      exact hfollowed hclosed hlenient
    · rw [isLenient_congr (ha.tracked d' hd)] at hlenient
      exact ht.attended d' doc' (hsame hd hdoc') hclosed hlenient
  · by_cases hd : d' = d
    · subst hd
      obtain rfl := hdoc.unique hdoc'
      exact hmatching l hclosed hl
    · rw [ha.tracked d' hd] at hl
      exact ht.matching d' doc' l (hsame hd hdoc') hclosed hl

/-- A change of grammar keeps documents tuned. -/
theorem Tuned.changeGrammar (ht : Tuned c e) (hs : Steady I N (Tidy active opened) e) (d : Nat)
    (g : Grammar) : Tuned c (changeGrammar h c d g e).2 := by
  cases hdoc : e.documents[d]? with
  | none =>
    have hsame : (Editor.changeGrammar h c d g e).2 = e := by
      rw [Editor.changeGrammar, maxNesting, setGrammar, Action.bind_apply, document_of_none hdoc]
    rw [hsame]
    exact ht
  | some doc =>
    have ha₀ : Attended e d doc e :=
      ⟨.refl d e, ⟨doc, hdoc, rfl, rfl⟩, fun n hn => hs.attached d doc n hdoc hn⟩
    have ha : Attended e d doc (Editor.changeGrammar h c d g e).2 :=
      (kept_attended h c e d doc).setGrammar maxNesting g e ha₀
    obtain ⟨doc', hdoc', hobservers, hclosed⟩ := ha.holds
    by_cases hcontroller : ∃ n, .controller n ∈ doc.grammarObservers.callbacks
    · refine ht.around ha.toAround hdoc' (fun _ _ => hobservers ▸ hcontroller) fun l hopen hl => ?_
      have hmatches : Matches c d (Editor.changeGrammar h c d g e).2 := by
        refine matches_setGrammar (hs.placed d doc hdoc).single maxNesting g ha₀ ?_
          fun _ => hcontroller
        intro doc₁ l₁ hdoc₁ hl₁
        obtain rfl := hdoc₁.unique hdoc
        exact ht.matching d doc₁ l₁ hdoc (hclosed.symm.trans hopen) hl₁
      exact hmatches doc' l hdoc' hl
    · -- nobody follows the document, so that it did not count as lenient and does not now
      have hu := undisturbed_changeGrammar h c (fun doc₁ n hdoc₁ hn =>
        hcontroller ⟨n, (Holds.unique hdoc hdoc₁) ▸ hn⟩) g
      have hfree (hopen : doc'.closed = false) :
          (Editor.changeGrammar h c d g e).2.tracked.lookup d = none := by
        rw [hu.tracked]
        cases hl : e.tracked.lookup d with
        | none => rfl
        | some l =>
          exact absurd (ht.attended d doc hdoc (hclosed.symm.trans hopen) (isLenient_of_lookup hl))
            hcontroller
      refine ht.around ha.toAround hdoc' (fun hopen hlenient => ?_) fun l hopen hl => ?_
      · rw [isLenient, hfree hopen] at hlenient
        contradiction
      · rw [hfree hopen] at hl
        contradiction

/-! ## What is kept otherwise -/

/-- Nothing has changed that has to do with the dialects of documents, and the same ones are
followed. -/
structure Unmoved (e e' : Editor σ κ) : Prop where
  count : e'.documents.length = e.documents.length
  tracked : e'.tracked = e.tracked
  documents : ∀ d doc', e'.Holds d doc' → ∃ doc, e.Holds d doc ∧ doc'.grammar = doc.grammar ∧
    doc'.closed = doc.closed ∧ ∀ n, .controller n ∈ doc'.grammarObservers.callbacks ↔
      .controller n ∈ doc.grammarObservers.callbacks

theorem Unmoved.refl (e : Editor σ κ) : Unmoved e e :=
  ⟨rfl, rfl, fun _ doc hdoc => ⟨doc, hdoc, rfl, rfl, fun _ => Iff.rfl⟩⟩

/-- An editor that is in tune stays so if nothing moves. -/
theorem Tuned.unmoved (ht : Tuned c e) (hu : Unmoved e e') : Tuned c e' := by
  -- who counts as lenient is on record outside the documents
  have hlenient (d : Nat) : e'.isLenient d = e.isLenient d :=
    isLenient_congr (congrArg (List.lookup d) hu.tracked)
  refine ⟨fun d hd => ?_, fun d doc' hdoc' hclosed' hd => ?_, fun d doc' l hdoc' hclosed' hl => ?_⟩
  · rw [hu.count]
    exact ht.known d (hlenient d ▸ hd)
  · obtain ⟨doc, hdoc, -, hclosed, hobservers⟩ := hu.documents d doc' hdoc'
    obtain ⟨n, hn⟩ := ht.attended d doc hdoc (hclosed.symm.trans hclosed') (hlenient d ▸ hd)
    exact ⟨n, (hobservers n).mpr hn⟩
  · obtain ⟨doc, hdoc, hgrammar, hclosed, -⟩ := hu.documents d doc' hdoc'
    rw [hgrammar]
    exact ht.matching d doc l hdoc (hclosed.symm.trans hclosed') (hu.tracked ▸ hl)

/-- Nothing moves in what is done within the host. -/
theorem unmoved_within {α : Type} {a : Action (Editor σ κ) α} (ha : Within I a) :
    Preserves (Unmoved e) a := by
  intro e₁ hu
  have hsame := ha e₁
  refine ⟨(congrArg List.length hsame.documents).trans hu.count, hsame.tracked.trans hu.tracked,
    fun d doc' hdoc' => ?_⟩
  rw [Holds, hsame.documents] at hdoc'
  exact hu.documents d doc' hdoc'

/-- A change of a document moves nothing if it leaves alone the grammar, the end and whether the
controller follows. -/
theorem unmoved_modify {f : Document κ → Document κ}
    (hf : ∀ doc, (f doc).grammar = doc.grammar ∧ (f doc).closed = doc.closed ∧
      ∀ n, .controller n ∈ (f doc).grammarObservers.callbacks ↔
        .controller n ∈ doc.grammarObservers.callbacks) (d : Nat) :
    Preserves (Unmoved e) (modify d f) := by
  intro e₁ hu
  refine ⟨(List.length_modify ..).trans hu.count, hu.tracked, fun d' doc' hdoc' => ?_⟩
  obtain ⟨doc₁, hdoc₁, rfl⟩ := exists_of_modify hdoc'
  obtain ⟨doc, hdoc, hgrammar, hclosed, hobservers⟩ := hu.documents d' doc₁ hdoc₁
  split
  · obtain ⟨hgrammar₁, hclosed₁, hobservers₁⟩ := hf doc₁
    exact ⟨doc, hdoc, hgrammar₁.trans hgrammar, hclosed₁.trans hclosed,
      fun n => (hobservers₁ n).trans (hobservers n)⟩
  · exact ⟨doc, hdoc, hgrammar, hclosed, hobservers⟩

theorem unmoved_setText (h : Host σ κ) (d : Nat) (t : Text) :
    Preserves (Unmoved e) (setText h d t) := by
  refine (unmoved_within (Confined.outside (h.respects_true.checkEdit d)).within).bind fun _ =>
    unmoved_modify (fun doc => ?_) d
  split <;> exact ⟨rfl, rfl, fun _ => Iff.rfl⟩

theorem unmoved_load (h : Host σ κ) (d : Nat) : Preserves (Unmoved e) (load h d) := by
  refine (unmoved_within (Confined.outside (h.respects_true.checkLoad d)).within).bind fun _ =>
    (unmoved_within (within_document (I := fun _ => True) d)).bind fun doc => ?_
  split
  · exact Preserves.pure _
  · refine (unmoved_within (confined_read h.respects_true _).within).bind fun chunks => ?_
    refine unmoved_modify ?_ d
    exact fun _ => ⟨rfl, rfl, fun _ => Iff.rfl⟩

theorem unmoved_save (h : Host σ κ) (d : Nat) : Preserves (Unmoved e) (save h d) := by
  refine (unmoved_within (within_document (I := fun _ => True) d)).bind fun doc => ?_
  split
  · exact Preserves.throw _
  · refine (unmoved_within (confined_store h.respects_true _ _).within).bind fun _ => ?_
    refine unmoved_modify ?_ d
    exact fun _ => ⟨rfl, rfl, fun _ => Iff.rfl⟩

theorem unmoved_mark (name : String) (t : Told) :
    Preserves (Unmoved e) (mark name t : Action (Editor σ κ) Unit) :=
  fun _ hu => ⟨hu.count, hu.tracked, hu.documents⟩

/-- Listeners that come and go do not make a difference. -/
theorem unmoved_listenGrammar (d id : Nat) (name : String) :
    Preserves (Unmoved e) (listenGrammar d id name : Action (Editor σ κ) Unit) := by
  refine (unmoved_within (within_document (I := fun _ => True) d)).bind fun doc =>
    (unmoved_mark name _).bind fun _ => unmoved_modify (fun doc => ?_) d
  exact ⟨rfl, rfl, fun n => by simp⟩

theorem unmoved_listenEnd (d id : Nat) (name : String) :
    Preserves (Unmoved e) (listenEnd d id name : Action (Editor σ κ) Unit) := by
  refine unmoved_modify ?_ d
  exact fun _ => ⟨rfl, rfl, fun _ => Iff.rfl⟩

theorem unmoved_unlisten (d id : Nat) (name : String) :
    Preserves (Unmoved e) (unlisten d id name : Action (Editor σ κ) Unit) := by
  refine unmoved_modify ?_ d
  exact fun _ => ⟨rfl, rfl, fun _ => List.mem_erase_of_ne (by simp)⟩

/-- Nothing has happened but to this document, which is closed. -/
structure Closed (e : Editor σ κ) (d : Nat) (e' : Editor σ κ) : Prop extends Around d e e' where
  documentOf : documentOf e' = documentOf e
  closed : ∀ doc, e'.Holds d doc → doc.closed = true

/-- A change that does not close a document leaves closed what is closed. -/
theorem closed_modify {f : Document κ → Document κ} (hf : ∀ doc, (f doc).closed = doc.closed) :
    Preserves (Closed e d) (modify d f) := by
  intro e₁ hclosed
  refine ⟨⟨(List.length_modify ..).trans hclosed.count, fun d' hd => ?_, hclosed.tracked⟩,
    hclosed.documentOf, preserves_closed hf d d e₁ hclosed.closed⟩
  exact (List.getElem?_modify_ne _ _ (Ne.symm hd)).trans (hclosed.documents d' hd)

/-- An observation of this document is given up. -/
theorem closed_unobserve (hn : e.documentOf n = some d) :
    Preserves (Closed e d) (unobserve n) := by
  intro e₁ hclosed
  have hdocument := congrFun hclosed.documentOf n
  rw [hn] at hdocument
  obtain ⟨o, ho, rfl⟩ := Option.map_eq_some_iff.mp hdocument
  rw [unobserve, Action.bind_apply, Action.ask_apply]
  simp only [ho]
  refine closed_modify ?_ e₁ hclosed
  exact fun _ => rfl

/-- Taking a document out of the table does not open it again. -/
theorem closed_untrack (d : Nat) : Preserves (Closed e d) (untrack d) := fun e₁ hclosed =>
  ⟨⟨hclosed.count, hclosed.documents, fun d' hd =>
    (lookup_filter_of_ne hd e₁.tracked).trans (hclosed.tracked d' hd)⟩,
    hclosed.documentOf, hclosed.closed⟩

/-- Whoever hears of the end of a document follows this document and no other one. -/
theorem documentOf_of_ended (hs : Steady I N (Tidy active opened) e) (hdoc : e.Holds d doc)
    (hn : .controller n ∈ doc.endObservers.callbacks) : e.documentOf n = some d := by
  have hcount := (hs.placed d doc hdoc).ended n
  have hpos := List.count_pos_iff.mpr hn
  exact hs.attached d doc n hdoc (List.count_pos_iff.mp (Nat.lt_of_lt_of_le hpos hcount))

/-- The end of a document matters to this document only. -/
theorem closed_endDocument (hs : Steady I N (Tidy active opened) e) (hdoc : e.Holds d doc) :
    Closed e d (endDocument d e).2 := by
  cases hclosed : doc.closed with
  | true =>
    rw [endDocument_of_closed hdoc hclosed]
    refine ⟨.refl d e, rfl, fun doc' hdoc' => ?_⟩
    obtain rfl := hdoc.unique hdoc'
    exact hclosed
  | false =>
    have hdoc₁ := hdoc.put { doc with closed := true }
    have hfirst : Closed e d (e.put d { doc with closed := true }) := by
      refine ⟨?_, rfl, fun doc' hdoc' => ?_⟩
      · exact .of_shape (I := I) ((Shape.refl hdoc).put _) fun _ _ => rfl
      · rw [← hdoc₁.unique hdoc']
    -- Whoever hears of the end follows this document only, so that no other one is touched.
    have hannounce : Closed e d (announceEnd d (e.put d { doc with closed := true })).2 := by
      rw [announceEnd, Action.bind_of_ok (document_apply hdoc₁)]
      refine Preserves.forM (fun x hx => ?_) _ hfirst
      cases x with
      | controller n =>
        exact (closed_unobserve (documentOf_of_ended hs hdoc hx)).bind fun _ => closed_untrack d
      | listener id name =>
        exact fun e₁ hclosed => ⟨⟨hclosed.count, hclosed.documents, hclosed.tracked⟩,
          hclosed.documentOf, hclosed.closed⟩
    rw [endDocument_of_open hdoc hclosed, Action.bind_apply]
    rcases hr : announceEnd d (e.put d { doc with closed := true }) with ⟨f | ⟨⟩, e₁⟩
    · rw [hr] at hannounce
      exact hannounce
    · rw [hr] at hannounce
      refine closed_modify ?_ e₁ hannounce
      exact fun _ => rfl

/-- The end of a document keeps documents tuned. -/
theorem Tuned.endDocument (ht : Tuned c e) (hs : Steady I N (Tidy active opened) e) (d : Nat) :
    Tuned c (endDocument d e).2 := by
  cases hdoc : e.documents[d]? with
  | none =>
    rw [endDocument_of_none hdoc]
    exact ht
  | some doc =>
    have hclosed := closed_endDocument hs hdoc
    obtain ⟨doc', hdoc'⟩ : ∃ doc', (Editor.endDocument d e).2.Holds d doc' := by
      refine ⟨_, List.getElem?_eq_getElem ?_⟩
      rw [hclosed.count]
      exact (List.getElem?_eq_some_iff.mp hdoc).choose
    have hnot : ¬ doc'.closed = false := by
      rw [hclosed.closed doc' hdoc']
      exact Bool.true_eq_false.mp
    exact ht.around hclosed.toAround hdoc' (fun hopen => absurd hopen hnot)
      fun _ hopen => absurd hopen hnot

/-! ## Observing a document -/

/-- What the controller does when it begins to follow a document of a grammar. -/
def firstLook (h : Host σ κ) (c : ControllerSettings) (d : Nat) (g : Grammar) :
    Action (Editor σ κ) (Option Failure) :=
  match c.languageOf g with
  | none => pure none
  | some l => turnLenient h c d none l

/-- The first grammar is handled by a first look, and what is refused then is not undone: there is
no grammar to give back. -/
theorem handleGrammar_first (hfree : e.tracked.lookup d = none) (g : Grammar)
    (revert : Nat → Grammar → Action (Editor σ κ) Unit) :
    handleGrammar h c revert d g none e = (firstLook h c d g >>= fun
      | none => pure .success
      | some f => pure (.failure f none)) e := by
  rw [firstLook]
  cases hl : c.languageOf g with
  | none =>
    -- without a language the handling is that of a canonical document, which does nothing
    rw [handleGrammar_of_none hl, disable_of_free c hfree]
    rfl
  | some l => exact handleGrammar_of_free hl hfree revert none

/-- To observe a document is to take a first look and to follow the document from then on. -/
theorem observe_of_firstLook {r : Except Failure (Option Failure)} (hdoc : e.Holds d doc)
    (hfree : e.tracked.lookup d = none)
    (hr : firstLook h c d doc.grammar (entered e d) = (r, e₂)) :
    (∀ f, r = .error f → observe h c d e = (.error f, e₂)) ∧
    ∀ x doc₂, r = .ok x → e₂.Holds d doc₂ → observe h c d e = (.ok e.observations.length,
      (e₂.noted e.observations.length doc₂.grammar).put d
        (followed doc₂ e.observations.length)) := by
  have hlast : (entered e d).observations[e.observations.length]? = some ⟨d, none⟩ :=
    List.getElem?_concat_length
  have hhandle := handleGrammar_first (h := h) (c := c) (e := entered e d) (d := d) hfree
    doc.grammar (changeGrammar h c)
  rw [observe_eq h c hdoc, Action.bind_apply, follow, Action.bind_apply, Action.ask_apply]
  simp only [hlast]
  rw [Action.bind_apply, hhandle, Action.bind_apply, hr]
  refine ⟨?_, ?_⟩
  · rintro f rfl
    rfl
  · rintro x doc₂ rfl hdoc₂
    have hput : (e₂.noted e.observations.length doc₂.grammar).Holds d doc₂ := hdoc₂
    have hnoted : { e₂ with observations := e₂.observations.modify e.observations.length fun o =>
        { o with previous := some doc₂.grammar } } =
          e₂.noted e.observations.length doc₂.grammar := rfl
    cases x with
    | none | some _ =>
      simp only [Action.bind_apply, Action.pure_apply, document_apply hdoc₂, Action.change_apply,
        hnoted, modify_apply hput]

/-- A first look turns the document lenient, or changes nothing. -/
theorem firstLook_ends (hI : h.Respects I) (hdoc : e.Holds d doc) (hhost : I e.host)
    (hfree : e.tracked.lookup d = none) :
    (∃ f e', firstLook h c d doc.grammar e = (.error f, e') ∧ HostOnly I e e') ∨
    (∃ r e', firstLook h c d doc.grammar e = (.ok r, e') ∧ HostOnly I e e') ∨
    ∃ l e' doc', c.languageOf doc.grammar = some l ∧
      firstLook h c d doc.grammar e = (.ok none, e') ∧
      Shape I e d doc' (e.tracked ++ [(d, l)]) e' ∧ doc.Akin doc' := by
  rw [firstLook]
  cases hl : c.languageOf doc.grammar with
  | none => exact Or.inr (Or.inl ⟨none, e, rfl, HostOnly.refl I e⟩)
  | some l =>
    obtain ⟨e', f, hhostOnly, hr, -⟩ | ⟨e', f, hhostOnly, hr⟩ |
        ⟨e', doc', e₁, -, hr, hshape, hshown⟩ :=
      turnLenient_ends hI c hdoc hhost hfree none l
    · exact Or.inl ⟨f, e', hr, hhostOnly⟩
    · exact Or.inr (Or.inl ⟨some f, e', hr, hhostOnly⟩)
    · exact Or.inr (Or.inr ⟨l, e', doc', rfl, hr, hshape, hshown.akin⟩)

/-- The document is followed from then on, unless the first look fails. -/
theorem Tuned.observe_of_ok {r : Option Failure} {doc₂ : Document κ} (ht : Tuned c e)
    (hdoc : e.Holds d doc) (hfree : e.tracked.lookup d = none)
    (hr : firstLook h c d doc.grammar (entered e d) = (.ok r, e₂)) (hdoc₂ : e₂.Holds d doc₂)
    (ha : Around d (entered e d) e₂)
    (hmatching : ∀ l, e₂.tracked.lookup d = some l → c.languageOf doc₂.grammar = some l) :
    Tuned c (observe h c d e).2 ∧ Around d e (Editor.observe h c d e).2 := by
  rw [(observe_of_firstLook hdoc hfree hr).2 r doc₂ rfl hdoc₂]
  have hput : (e₂.noted e.observations.length doc₂.grammar).Holds d doc₂ := hdoc₂
  have hnoted : Around d e (e₂.noted e.observations.length doc₂.grammar) :=
    ⟨ha.count, ha.documents, ha.tracked⟩
  have ha₂ : Around d e ((e₂.noted e.observations.length doc₂.grammar).put d
      (followed doc₂ e.observations.length)) :=
    hnoted.trans (.of_shape (I := fun _ => True) ((Shape.refl hput).put _) fun _ _ => rfl)
  refine ⟨ht.around ha₂ (hput.put _) (fun _ _ => ⟨e.observations.length, ?_⟩) fun l _ hl => ?_,
    ha₂⟩
  · rw [followed, Emitter.callbacks_subscribe]
    exact List.mem_append_right _ List.mem_cons_self
  · exact hmatching l hl

/-- To observe a document changes this document only. If it counts as lenient then, it is followed
and matches its grammar. -/
theorem Tuned.observe (ht : Tuned c e) (d : Nat) (hfree : e.tracked.lookup d = none) :
    Tuned c (observe h c d e).2 ∧ Around d e (Editor.observe h c d e).2 := by
  cases hdoc : e.documents[d]? with
  | none =>
    rw [observe_of_none h c hdoc]
    exact ⟨⟨ht.known, ht.attended, ht.matching⟩, ⟨rfl, fun _ _ => rfl, fun _ _ => rfl⟩⟩
  | some doc =>
    have henter : (entered e d).Holds d doc := hdoc
    have hfree₁ : (entered e d).tracked.lookup d = none := hfree
    have hnone {e₂ : Editor σ κ} (hhostOnly : HostOnly (fun _ => True) (entered e d) e₂) (l : String)
        (hl : e₂.tracked.lookup d = some l) : False := by
      rw [hhostOnly.tracked, hfree₁] at hl
      contradiction
    obtain ⟨f, e₂, hr, hhostOnly⟩ | ⟨r, e₂, hr, hhostOnly⟩ |
        ⟨l, e₂, doc₂, hl, hr, hshape, hakin⟩ :=
      firstLook_ends (c := c) h.respects_true henter trivial hfree₁
    · -- it is not followed, but neither does it count as lenient
      rw [(observe_of_firstLook hdoc hfree hr).1 f rfl]
      have ha := Around.of_hostOnly d hhostOnly
      have ha₂ : Around d e e₂ := ⟨ha.count, ha.documents, ha.tracked⟩
      refine ⟨ht.around ha₂ (hhostOnly.holds henter) (fun _ hlenient => ?_) fun l _ hl => ?_, ha₂⟩
      · obtain ⟨l, hl⟩ := Option.isSome_iff_exists.mp hlenient
        exact (hnone hhostOnly l hl).elim
      · exact (hnone hhostOnly l hl).elim
    · exact ht.observe_of_ok hdoc hfree hr (hhostOnly.holds henter) (.of_hostOnly d hhostOnly)
        fun l hl => (hnone hhostOnly l hl).elim
    · refine ht.observe_of_ok hdoc hfree hr (hshape.holds henter)
        (.of_shape hshape fun d' hd => lookup_append_of_ne hd _ l) fun l' hl' => ?_
      rw [hshape.tracked, lookup_append_self hfree₁] at hl'
      rw [hakin.grammar, hl, hl']

/-! ## Everything in order -/

/-- Documents stand as they should, and match their grammars; none counts as lenient unless the
lenient mode is active. -/
structure Orderly (I : σ → Prop) (c : ControllerSettings) (active : Bool) (opened : List Nat)
    (N : Nat) (e : Editor σ κ) : Prop extends Steady I N (Tidy active opened) e where
  tuned : Tuned c e
  idle : active = false → e.tracked = []

/-- What does not move documents and keeps where they stand keeps everything in order. -/
theorem Orderly.unmoved {α : Type} {a : Action (Editor σ κ) α}
    (hsteady : Preserves (Steady I N (Tidy active opened)) a)
    (hunmoved : ∀ e, Preserves (Unmoved e) a) : Preserves (Orderly I c active opened N) a := by
  intro e ho
  have hu := hunmoved e e (.refl e)
  exact ⟨hsteady e ho.toSteady, ho.tuned.unmoved hu, fun hoff => hu.tracked.trans (ho.idle hoff)⟩

theorem Orderly.within {α : Type} {a : Action (Editor σ κ) α} (ha : Within I a) :
    Preserves (Orderly I c active opened N) a :=
  .unmoved (Steady.of_within ha) fun _ => unmoved_within ha

theorem Orderly.mark (name : String) (t : Told) :
    Preserves (Orderly I c active opened N) (mark name t : Action (Editor σ κ) Unit) :=
  .unmoved (fun _ hs => hs.of_same hs.host rfl rfl fun _ _ hn => hn) fun _ => unmoved_mark name t

section Order

variable (hI : h.Respects I)

include hI

theorem Orderly.setText (d : Nat) (t : Text) :
    Preserves (Orderly I c active opened N) (setText h d t) :=
  .unmoved (Steady.edit hI placing_tidy d t) fun _ => unmoved_setText h d t

theorem Orderly.load (d : Nat) : Preserves (Orderly I c active opened N) (load h d) :=
  .unmoved (Steady.load hI placing_tidy d) fun _ => unmoved_load h d

theorem Orderly.save (d : Nat) : Preserves (Orderly I c active opened N) (save h d) :=
  .unmoved (Steady.save hI placing_tidy d) fun _ => unmoved_save h d

/-- A change of grammar keeps order if every document can tell whether it is modified. -/
theorem Orderly.changeGrammar (hmodified : ∀ d s, I s → (h.checkModified d s).1 = .ok ()) (d : Nat)
    (g : Grammar) : Preserves (Orderly I c active opened N) (changeGrammar h c d g) := by
  intro e ho
  refine ⟨Steady.setGrammar hI placing_tidy hmodified maxNesting d g e ho.toSteady,
    ho.tuned.changeGrammar ho.toSteady d g, fun hoff => ?_⟩
  -- nobody hears of the grammar
  have hu := undisturbed_changeGrammar h c (fun doc n hdoc hn => by
    have htrue := (ho.placed d doc hdoc).active n hn
    rw [hoff] at htrue
    contradiction) g
  exact hu.tracked.trans (ho.idle hoff)

end Order

/-- A list without lenient documents stays so while documents end. -/
theorem preserves_untracked (d : Nat) :
    Preserves (fun e : Editor σ κ => e.tracked = []) (endDocument d) := by
  have hunobserve (n : Nat) :
      Preserves (fun e : Editor σ κ => e.tracked = []) (unobserve n) := by
    refine (Preserves.ask _).bind fun os => ?_
    split
    · exact Preserves.pure _
    · exact fun _ he => he
  have hdocument : Preserves (fun e : Editor σ κ => e.tracked = []) (document d) := by
    intro e he
    exact (within_document (I := fun _ => True) d e).tracked.trans he
  refine hdocument.bind fun doc => ?_
  split
  · exact Preserves.pure _
  refine Preserves.bind (fun _ he => he) fun _ => Preserves.bind ?_ fun _ _ he => he
  refine hdocument.bind fun doc => Preserves.forM fun x _ => ?_
  cases x with
  | controller n => exact (hunobserve n).bind fun _ => fun e he => by simp [untrack, he]
  | listener id name => exact fun _ he => he

theorem Orderly.endDocument (h : Host σ κ) (d : Nat) :
    Preserves (Orderly I c active opened N) (endDocument d : Action (Editor σ κ) Unit) := by
  intro e ho
  exact ⟨Steady.destroy (placing_tidy (h := h)) (ending_tidy d) e ho.toSteady,
    ho.tuned.endDocument ho.toSteady d, fun hoff => preserves_untracked d e (ho.idle hoff)⟩

/-- Listeners come and go. -/
theorem Orderly.listen {f : Document κ → Document κ}
    (hf : ∀ doc, (f doc).handle = doc.handle ∧ (f doc).closed = doc.closed ∧
      (f doc).grammar = doc.grammar)
    (hgrammar : ∀ doc n, (f doc).grammarObservers.callbacks.count (.controller n)
      = doc.grammarObservers.callbacks.count (.controller n))
    (hend : ∀ doc n, (f doc).endObservers.callbacks.count (.controller n)
      = doc.endObservers.callbacks.count (.controller n))
    (hsingle : ∀ doc, (f doc).grammarObservers.callbacks.countP Observer.isController
      ≤ doc.grammarObservers.callbacks.countP Observer.isController) (d : Nat) :
    Preserves (Orderly I c active opened N) (modify d f) := by
  have hmem (doc : Document κ) (n : Nat) :
      .controller n ∈ (f doc).grammarObservers.callbacks ↔
        .controller n ∈ doc.grammarObservers.callbacks := by
    rw [← List.count_pos_iff, hgrammar, List.count_pos_iff]
  refine .unmoved (fun e hs => hs.modify d (fun doc n _ hn => Or.inl ((hmem doc n).mp hn))
    fun doc t _ ht => ?_) fun e => unmoved_modify (fun doc => ?_) d
  · obtain ⟨hhandle, hclosed, -⟩ := hf doc
    refine ⟨Nat.le_trans (hsingle doc) ht.single, fun n hn => ht.active n ((hmem doc n).mp hn),
      fun n => ?_, fun n hn hopen => ?_, fun hopen => ?_, fun hopen => ?_⟩
    · rw [hgrammar, hend]
      exact ht.ended n
    · exact ht.opened n ((hmem doc n).mp hn) (hclosed.symm.trans hopen)
    · rw [hhandle]
      exact ht.bare (hclosed.symm.trans hopen)
    · rw [hhandle]
      exact ht.mapped (hclosed.symm.trans hopen)
  · obtain ⟨-, hclosed, hsame⟩ := hf doc
    exact ⟨hsame, hclosed, hmem doc⟩

theorem Orderly.listenGrammar (d id : Nat) (name : String) :
    Preserves (Orderly I c active opened N)
      (listenGrammar d id name : Action (Editor σ κ) Unit) := by
  refine (Orderly.within (within_document d)).bind fun doc => (Orderly.mark _ _).bind fun _ => ?_
  refine Orderly.listen ?_ ?_ ?_ ?_ d
  · exact fun _ => ⟨rfl, rfl, rfl⟩
  · exact fun doc n => by simp
  · exact fun _ _ => rfl
  · exact fun doc => by simp [Observer.isController]

theorem Orderly.listenEnd (d id : Nat) (name : String) :
    Preserves (Orderly I c active opened N) (listenEnd d id name : Action (Editor σ κ) Unit) := by
  refine Orderly.listen ?_ ?_ ?_ ?_ d
  · exact fun _ => ⟨rfl, rfl, rfl⟩
  · exact fun _ _ => rfl
  · exact fun doc n => by simp
  · exact fun _ => Nat.le_refl _

theorem Orderly.unlisten (d id : Nat) (name : String) :
    Preserves (Orderly I c active opened N) (unlisten d id name : Action (Editor σ κ) Unit) := by
  refine Orderly.listen ?_ ?_ ?_ ?_ d
  · exact fun _ => ⟨rfl, rfl, rfl⟩
  · exact fun _ _ => List.count_erase_of_ne (by simp)
  · exact fun _ _ => List.count_erase_of_ne (by simp)
  · exact fun _ => List.erase_sublist.countP_le

/-- The controller begins to follow an open document that it does not follow yet. -/
theorem Orderly.observe (hI : h.Respects I)
    (hmodified : ∀ d s, I s → (h.checkModified d s).1 = .ok ())
    (ho : Orderly I c true opened N e) (hopened : d ∈ opened) (hfree : e.tracked.lookup d = none)
    (halone : ∀ doc n, e.Holds d doc → .controller n ∉ doc.grammarObservers.callbacks) :
    Orderly I c true opened N (observe h c d e).2 := by
  refine ⟨Steady.observe hI placing_tidy hmodified ho.toSteady fun doc hdoc =>
    welcoming_tidy hopened (halone doc · hdoc), (ho.tuned.observe d hfree).1, fun hoff => ?_⟩
  contradiction

/-- After a deactivation everything is in order without the lenient mode. -/
theorem Orderly.deactivate (hI : h.Respects I)
    (hmodified : ∀ d s, I s → (h.checkModified d s).1 = .ok ())
    (ho : Orderly I c active opened N e) :
    ∃ e', deactivate h c false e = (.ok (), e') ∧ Orderly I c false opened N e' := by
  obtain ⟨e', hr, htracked, hs, hfree⟩ :=
    ho.toSteady.deactivate (c := c) hI hmodified placing_tidy once_tidy
  have hnobody (d : Nat) : e'.isLenient d = false := by
    rw [isLenient, htracked]
    rfl
  have hoff : Steady I N (Tidy false opened) e' := hs.imp fun d doc t hdoc ht =>
    ⟨ht.single, fun n hn => absurd hn (hfree.placed d doc hdoc n trivial), ht.ended, ht.opened,
      ht.bare, ht.mapped⟩
  refine ⟨e', hr, hoff, ⟨fun d hd => ?_, fun d doc _ _ hd => ?_, fun d doc l _ _ hl => ?_⟩,
    fun _ => htracked⟩
  · rw [hnobody d] at hd
    contradiction
  · rw [hnobody d] at hd
    contradiction
  · rw [htracked] at hl
    contradiction

end Editor

end Dialects

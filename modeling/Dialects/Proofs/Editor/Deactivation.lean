import Dialects.Proofs.Editor.Mapping
import Dialects.Proofs.Editor.Separation
import Dialects.Proofs.Storage.Directory

/-!
# Deactivation

When the controller is deactivated it gives up all its observations and turns every lenient document
canonical. Any of this may fail for any of the documents. Giving up an observation changes nothing
but who follows a document (`Undisturbed`), and each document that is turned canonical becomes what
it becomes alone (`content?_disableAll`), so that the same is true of the deactivation as a whole
(`content?_deactivate`).

Whatever has happened before, the controller follows a document through each observation at most
once, so that giving up the observation ends this; and a document that is not closed has the handle
that it started with, or one that is mapped from it. This is a property of where documents stand
(`Anchored`). After the deactivation no document is followed, and nobody hears of a grammar any more
(`undisturbed_changeGrammar`).

## Main definitions

* `Idle`: a controller that follows no document;
* `Deactivated`: what a deactivation comes to.

## Main results

* `content?_deactivate`: each document becomes what it becomes alone;
* `deactivate_workOn`: what a deactivation comes to after any run;
* `Directory.separate`: documents on disk do not interfere with each other.
-/

namespace Dialects.Editor

open Dialects.Action

variable {σ κ : Type} {I : σ → Prop} {h : Host σ κ} {c : ControllerSettings}
  {alike : Part → σ → σ → Prop} {lasting : Part → Prop}
  {e e' e₀ e₁ e₂ : Editor σ κ} {d n N : Nat} {doc doc' : Document κ}
  {P : Nat → Document κ → Bool → Prop}

/-! ## Where documents stand -/

/-- The controller follows no document. None counts as lenient, and the handles of those that are
not closed are not mapped. -/
structure Idle (I : σ → Prop) (e : Editor σ κ) : Prop where
  host : I e.host
  tracked : e.tracked = []
  alone : ∀ d doc n, e.Holds d doc → .controller n ∉ doc.grammarObservers.callbacks
  bare : ∀ d doc handle, e.Holds d doc → doc.closed = false → doc.handle = some handle →
    handle.isMapped = false

/-- The controller follows the document through no observation more than once, and as long as the
document is not closed it has the handle that it had in the first editor, or counts as lenient and
has one that is mapped from it. -/
structure Anchored (e₀ : Editor σ κ) (d : Nat) (doc : Document κ) (lenient : Bool) : Prop where
  once : ∀ n, doc.grammarObservers.callbacks.count (.controller n) ≤ 1
  closed : ∀ doc₀, e₀.Holds d doc₀ → doc₀.closed = true → doc.closed = true
  own : ∀ doc₀, e₀.Holds d doc₀ → doc.closed = false →
    doc.handle = doc₀.handle ∨ lenient = true ∧
      ∃ base binding, doc₀.handle = some base ∧ doc.handle = some (.mapped base binding)

/-- A document that is not closed was not closed at the start. -/
theorem Anchored.not_closed {lenient : Bool} (ha : Anchored e₀ d doc lenient)
    {doc₀ : Document κ} (hdoc₀ : e₀.Holds d doc₀) (hclosed : doc.closed = false) :
    doc₀.closed = false := by
  cases hclosed₀ : doc₀.closed with
  | false => rfl
  | true => exact absurd (ha.closed doc₀ hdoc₀ hclosed₀) (by simp [hclosed])

/-- A document stays anchored when its handle is mapped or unmapped, and when an observation
ends. -/
theorem placing_anchored (hidle : Idle I e₀) :
    Placing h I e₀.documents.length (Anchored e₀) where
  congr ha hhandle hclosed hobservers _ := by
    refine ⟨?_, ?_, ?_⟩
    · rw [hobservers]
      exact ha.once
    · rw [hclosed]
      exact ha.closed
    · rw [hclosed, hhandle]
      exact ha.own
  unsubscribed n ha := by
    refine ⟨fun m => ?_, ha.closed, ha.own⟩
    exact Nat.le_trans (List.erase_sublist.count_le _) (ha.once m)
  mapped binding _ _ ha hinner _ := by
    refine ⟨ha.once, ha.closed, fun doc₀ hdoc₀ hclosed => ?_⟩
    obtain hsame | ⟨hfalse, -⟩ := ha.own doc₀ hdoc₀ hclosed
    · exact Or.inr ⟨rfl, _, binding, hsame ▸ hinner, rfl⟩
    · contradiction
  unbacked _ _ ha _ := by
    refine ⟨ha.once, ha.closed, fun doc₀ hdoc₀ hclosed => ?_⟩
    obtain hsame | ⟨hfalse, -⟩ := ha.own doc₀ hdoc₀ hclosed
    · exact Or.inl hsame
    · contradiction
  unmapped {d doc} _ ha := by
    refine ⟨ha.once, ha.closed, fun doc₀ hdoc₀ hclosed => Or.inl ?_⟩
    obtain hsame | ⟨-, base, binding, hbase, hmapped⟩ := ha.own doc₀ hdoc₀ hclosed
    · -- without a file it has kept its handle, which is not mapped
      show doc.handle.map Handle.unmapped = doc₀.handle
      rw [hsame]
      cases hhandle : doc₀.handle with
      | none => rfl
      | some handle =>
        have hbare := hidle.bare d doc₀ handle hdoc₀ (ha.not_closed hdoc₀ hclosed) hhandle
        rw [Option.map_some, unmapped_of_not_mapped hbare]
    · show doc.handle.map Handle.unmapped = doc₀.handle
      rw [hmapped, hbase]
      rfl

/-- A document stays anchored when the controller begins to follow it. -/
theorem welcoming_anchored (d : Nat) (observers : List Observer) :
    Welcoming (Anchored e₀) d observers := by
  rintro doc t n rfl hfresh ha
  refine ⟨fun m => ?_, ha.closed, ha.own⟩
  rw [followed, Emitter.callbacks_subscribe, List.count_append]
  -- the document has one follower more, which is none of those before
  by_cases hm : m = n
  · subst hm
    have hnone := List.count_eq_zero_of_not_mem hfresh
    have hone : [Observer.controller m].count (.controller m) = 1 := List.count_singleton_self
    omega
  · rw [List.count_singleton, if_neg (by simpa using Ne.symm hm), Nat.add_zero]
    exact ha.once m

/-- A document stays anchored when it is closed and forgotten. -/
theorem ending_anchored (d : Nat) : Ending (Anchored e₀) d where
  closed ha := ⟨ha.once, fun _ _ _ => rfl, fun _ _ hfalse => absurd hfalse Bool.true_eq_false.mp⟩
  forgotten hclosed ha :=
    ⟨ha.once, ha.closed, fun _ _ hfalse => absurd (hclosed.symm.trans hfalse) (by simp)⟩
  deserted ha := ⟨fun n => Nat.zero_le 1, ha.closed, ha.own⟩

/-- At the start every document has its own handle. -/
theorem Idle.steady (hidle : Idle I e₀) :
    Steady I e₀.documents.length (Anchored e₀) e₀ := by
  refine ⟨hidle.host, rfl, fun d doc n hdoc hn => absurd hn (hidle.alone d doc n hdoc),
    fun d doc hdoc => ⟨fun n => ?_, fun doc₀ hdoc₀ => ?_, fun doc₀ hdoc₀ _ => ?_⟩⟩
  · rw [List.count_eq_zero_of_not_mem (hidle.alone d doc n hdoc)]
    exact Nat.zero_le 1
  · obtain rfl := hdoc.unique hdoc₀
    exact id
  · obtain rfl := hdoc.unique hdoc₀
    exact Or.inl rfl

/-- The controller follows the document through no observation of these numbers. -/
def Unfollowed (ns : Nat → Prop) (_ : Nat) (doc : Document κ) (_ : Bool) : Prop :=
  ∀ n, ns n → .controller n ∉ doc.grammarObservers.callbacks

/-- A document stays unfollowed when its handle is mapped or unmapped, and when an observation
ends. -/
theorem placing_unfollowed (ns : Nat → Prop) : Placing h I N (Unfollowed (κ := κ) ns) where
  congr hfree _ _ hobservers _ n hn := by
    rw [hobservers]
    exact hfree n hn
  unsubscribed _ hfree n hn hmem := hfree n hn (List.mem_of_mem_erase hmem)
  mapped _ _ _ hfree _ _ := hfree
  unbacked _ _ hfree _ := hfree
  unmapped _ hfree := hfree

/-- A document stays unfollowed when it is closed and forgotten. -/
theorem ending_unfollowed (ns : Nat → Prop) (d : Nat) : Ending (Unfollowed (κ := κ) ns) d where
  closed hfree := hfree
  forgotten _ hfree := hfree
  deserted _ _ _ := List.not_mem_nil

/-! ## Giving up observations -/

/-- Nothing that concerns the content of documents has changed. -/
structure Undisturbed (e e' : Editor σ κ) : Prop where
  host : e'.host = e.host
  tracked : e'.tracked = e.tracked
  observations : e'.observations = e.observations
  content : ∀ d, e'.content? d = e.content? d

theorem Undisturbed.refl (e : Editor σ κ) : Undisturbed e e := ⟨rfl, rfl, rfl, fun _ => rfl⟩

/-- The file of a document is part of its content. -/
theorem Undisturbed.fileOf (hu : Undisturbed e e') (d : Nat) : e'.fileOf d = e.fileOf d := by
  have hfile (f : Editor σ κ) :
      f.fileOf d = (f.content? d).bind fun content => content.2.2.map Handle.base := by
    rw [content?, Option.bind_map]
    rfl
  rw [hfile, hfile, hu.content]

/-- Documents stay apart where nothing that concerns their content changes. -/
theorem Undisturbed.apart (hu : Undisturbed e e') (hapart : Apart lasting e) :
    Apart lasting e' := by
  intro d d' n hne h₁ h₂ hfile₁ hfile₂
  rw [isLenient_congr (congrArg (List.lookup _) hu.tracked)] at h₁ h₂
  rw [hu.fileOf] at hfile₁ hfile₂
  exact hapart d d' n hne h₁ h₂ hfile₁ hfile₂

/-- To everything that has to do with a document the two are the same. -/
theorem Undisturbed.agree (hu : Undisturbed e e') (halike : ∀ p, Equivalence (alike p)) (d : Nat) :
    Agree alike d (e.fileOf d) e e' := by
  refine ⟨(hu.content d).symm, fun _ => fileOf_of_holds, congrArg _ hu.tracked.symm, fun p _ => ?_⟩
  rw [hu.host]
  exact (halike p).refl _

/-- A change of a document that leaves its content alone disturbs nothing. -/
theorem undisturbed_modify {f : Document κ → Document κ}
    (hf : ∀ doc, (f doc).content = doc.content) (d : Nat) :
    Preserves (Undisturbed e) (modify d f) := by
  intro e₁ hu
  refine ⟨hu.host, hu.tracked, hu.observations, fun d' => ?_⟩
  rw [← hu.content d', content?, content?, Editor.modify, Action.change_apply,
    List.getElem?_modify]
  cases e₁.documents[d']? with
  | none => rfl
  | some doc =>
    show some (if d = d' then f doc else doc).content = some doc.content
    split
    · rw [hf doc]
    · rfl

/-- The end of an observation disturbs nothing. -/
theorem undisturbed_unobserve (n : Nat) :
    Preserves (Undisturbed e) (unobserve n : Action (Editor σ κ) Unit) := by
  refine (Preserves.ask _).bind fun os => ?_
  split
  · exact Preserves.pure _
  · next o _ =>
    refine undisturbed_modify ?_ o.document
    exact fun _ => rfl

/-- Giving up observations cannot fail. -/
theorem forM_unobserve_cons (n : Nat) (ns : List Nat) (e : Editor σ κ) :
    (n :: ns).forM unobserve e = ns.forM unobserve (unobserve n e).2 := by
  have hok : (unobserve n e).1 = .ok () := by
    rw [unobserve, Action.bind_apply, Action.ask_apply]
    simp only []
    cases e.observations[n]? <;> rfl
  exact Action.bind_of_ok (Prod.ext hok rfl)

/-- The ends of observations never fail, and disturb nothing. -/
theorem forM_unobserve (ns : List Nat) (e : Editor σ κ) :
    ∃ e', ns.forM unobserve e = (.ok (), e') ∧ Undisturbed e e' := by
  have hok : (ns.forM unobserve e).1 = .ok () := by
    induction ns generalizing e with
    | nil => rfl
    | cons n ns ih =>
      rw [forM_unobserve_cons]
      exact ih _
  exact ⟨_, Prod.ext hok rfl, Preserves.forM (fun n _ => undisturbed_unobserve n) e (.refl e)⟩

/-- The controller follows no document through the same observation twice. -/
def Once (P : Nat → Document κ → Bool → Prop) : Prop :=
  ∀ d doc t, P d doc t → ∀ n, doc.grammarObservers.callbacks.count (.controller n) ≤ 1

/-- Once an observation is given up, nobody is followed through it: it followed one document only,
and this document only once. Nobody is followed who was not before. -/
theorem Steady.unfollowed (honce : Once P) (hs : Steady I N P e) (n : Nat)
    (hdoc' : (Editor.unobserve n e).2.Holds d doc') :
    ∃ doc, e.Holds d doc ∧ ∀ m, .controller m ∈ doc'.grammarObservers.callbacks →
      m ≠ n ∧ .controller m ∈ doc.grammarObservers.callbacks := by
  rw [Editor.unobserve, Action.bind_apply, Action.ask_apply] at hdoc'
  simp only [] at hdoc'
  cases ho : e.observations[n]? with
  | none =>
    rw [ho] at hdoc'
    refine ⟨doc', hdoc', fun m hm => ⟨?_, hm⟩⟩
    rintro rfl
    -- whoever is followed is followed through an observation that exists
    have hdocument := hs.attached d doc' m hdoc' hm
    rw [documentOf, ho] at hdocument
    contradiction
  | some o =>
    rw [ho] at hdoc'
    obtain ⟨doc, hdoc, rfl⟩ := exists_of_modify hdoc'
    refine ⟨doc, hdoc, fun m hm => ?_⟩
    by_cases hd : o.document = d
    · rw [if_pos hd] at hm
      refine ⟨?_, List.mem_of_mem_erase hm⟩
      rintro rfl
      have hcount : 0 < (doc.grammarObservers.callbacks.erase (.controller m)).count
          (.controller m) := List.count_pos_iff.mpr hm
      rw [List.count_erase_self] at hcount
      have hmost := honce d doc _ (hs.placed d doc hdoc) m
      omega
    · rw [if_neg hd] at hm
      refine ⟨?_, hm⟩
      rintro rfl
      have hdocument := hs.attached d doc m hdoc hm
      rw [documentOf, ho] at hdocument
      exact hd (Option.some.inj hdocument)

/-- Once observations are given up, nobody is followed through any of them. -/
theorem Steady.unfollowed_forM (hP : Placing h I N P) (honce : Once P) (ns : List Nat)
    (hs : Steady I N P e) (hdoc' : (ns.forM Editor.unobserve e).2.Holds d doc') :
    ∃ doc, e.Holds d doc ∧ ∀ m, .controller m ∈ doc'.grammarObservers.callbacks →
      m ∉ ns ∧ .controller m ∈ doc.grammarObservers.callbacks := by
  induction ns generalizing e with
  | nil => exact ⟨doc', hdoc', fun m hm => ⟨List.not_mem_nil, hm⟩⟩
  | cons n ns ih =>
    rw [forM_unobserve_cons] at hdoc'
    obtain ⟨doc₁, hdoc₁, hrest⟩ := ih (Steady.unobserve hP n e hs) hdoc'
    obtain ⟨doc, hdoc, hfirst⟩ := hs.unfollowed honce n hdoc₁
    refine ⟨doc, hdoc, fun m hm => ?_⟩
    obtain ⟨hnot, hm₁⟩ := hrest m hm
    obtain ⟨hne, hm₂⟩ := hfirst m hm₁
    exact ⟨fun hmem => (List.mem_cons.mp hmem).elim hne hnot, hm₂⟩

/-! ## Turning documents canonical -/

/-- Turning documents canonical never fails, whatever happens to each of them. -/
theorem disableAll_ok (h : Host σ κ) (c : ControllerSettings) (ts : List (Nat × String))
    (e : Editor σ κ) : (disableAll h c ts e).1 = .ok () := by
  induction ts generalizing e with
  | nil => rfl
  | cons t ts ih => exact ih _

/-- No document that has been turned canonical counts as lenient. -/
theorem isLenient_disableAll {ts : List (Nat × String)}
    (hd : d ∈ ts.map Prod.fst ∨ e.isLenient d = false) :
    (disableAll h c ts e).2.isLenient d = false := by
  induction ts generalizing e with
  | nil => exact hd.resolve_left List.not_mem_nil
  | cons t ts ih =>
    rw [disableAll_cons]
    refine ih ?_
    rw [isLenient, tracked_disable]
    by_cases heq : d = t.1
    · subst heq
      exact Or.inr (congrArg Option.isSome (lookup_filter_self t.1 e.tracked))
    · rw [lookup_filter_of_ne heq]
      exact hd.imp_left fun hmem => (List.mem_cons.mp hmem).resolve_left heq

/-- Turning documents canonical one after the other leaves a steady editor steady. -/
theorem Steady.disableAll (hI : h.Respects I) (hP : Placing h I N P)
    (hmodified : ∀ d s, I s → (h.checkModified d s).1 = .ok ()) (ts : List (Nat × String)) :
    Preserves (Steady I N P) (disableAll h c ts) :=
  Preserves.forM fun t _ e hs => Steady.disable hI hP hmodified t.1 e hs

/-- Clearing the list of lenient documents makes no difference if there are none. -/
theorem Steady.cleared (hs : Steady I N P e) (hfree : ∀ d, e.isLenient d = false) :
    Steady I N P { e with tracked := [] } := by
  refine hs.onward hs.host rfl (fun _ _ hn => hn) fun d doc hdoc =>
    ⟨doc, hdoc, fun _ hn => Or.inl hn, fun hplaced => ?_⟩
  rw [hfree d] at hplaced
  exact hplaced

/-! ## Deactivation -/

/-- A deactivation ends all observations, then turns canonical what counts as lenient, and empties
the table. -/
theorem deactivate_apply
    (hgiven : (List.range e.observations.length).forM unobserve e = (.ok (), e₁)) :
    deactivate h c false e
      = (.ok (), { (disableAll h c e₁.tracked e₁).2 with tracked := [] }) := by
  have hall : disableAll h c e₁.tracked e₁ = (.ok (), (disableAll h c e₁.tracked e₁).2) :=
    Prod.ext (disableAll_ok h c _ _) rfl
  rw [deactivate, Action.bind_apply, Action.ask_apply]
  simp only [Action.bind_apply, hgiven]
  exact Action.bind_of_ok (k := fun _ => Action.change fun e => { e with tracked := [] }) hall

/-- A document that counts as lenient has an entry in the table. -/
theorem mem_tracked_of_isLenient (hlenient : e.isLenient d = true) :
    d ∈ e.tracked.map Prod.fst := by
  obtain ⟨p, hp, hsame⟩ : ∃ p ∈ e.tracked, (d == p.1) = true := by
    simpa [isLenient, List.lookup_eq_none_iff, Option.isSome_iff_ne_none] using hlenient
  exact List.mem_map.mpr ⟨p, hp, (beq_iff_eq.mp hsame).symm⟩

/-- A deactivation leaves each document as turning it canonical alone would leave it. -/
theorem content?_deactivate (hh : h.Separate alike lasting) (c : ControllerSettings)
    (hapart : Apart lasting e) (d : Nat) :
    (deactivate h c false e).2.content? d = (disable h c d e).2.content? d := by
  obtain ⟨e₁, hgiven, hu⟩ := forM_unobserve (List.range e.observations.length) e
  -- those who are told to stop observing leave the documents as they are
  rw [deactivate_apply hgiven]
  calc (disableAll h c e₁.tracked e₁).2.content? d
    _ = (disable h c d e₁).2.content? d :=
        content?_disableAll hh c e₁.tracked (hu.apart hapart) mem_tracked_of_isLenient
    _ = (disable h c d e).2.content? d :=
        ((own_disable hh c).agree (hu.agree hh.equivalence d)).2.content.symm

/-- A grammar that is set makes no difference to a document that is not followed. -/
theorem undisturbed_changeGrammar (h : Host σ κ) (c : ControllerSettings)
    (hfree : ∀ doc n, e.Holds d doc → .controller n ∉ doc.grammarObservers.callbacks)
    (g : Grammar) : Undisturbed e (changeGrammar h c d g e).2 := by
  rw [changeGrammar, maxNesting, setGrammar, Action.bind_apply]
  cases hdoc : e.documents[d]? with
  | none =>
    rw [document_of_none hdoc]
    exact .refl e
  | some doc =>
    rw [document_apply hdoc]
    simp only []
    split
    · exact .refl e
    refine (undisturbed_modify ?_ d).bind (fun _ => ?_) e (.refl e)
    · exact fun _ => rfl
    refine Preserves.forM fun x hx => ?_
    cases x with
    | controller n => exact absurd hx (hfree doc n hdoc)
    | listener id name => exact fun e₁ hu => ⟨hu.host, hu.tracked, hu.observations, hu.content⟩

/-- What a deactivation comes to. -/
structure Deactivated (h : Host σ κ) (c : ControllerSettings) (I : σ → Prop)
    (alike : Part → σ → σ → Prop) (lasting : Part → Prop) (e₀ e e' : Editor σ κ) : Prop where
  /-- The controller is as it was at the start. -/
  idle : Idle I e'
  /-- A document that counted as lenient has got the handle back that its own was made from. -/
  unmapped : ∀ d doc, e.Holds d doc → e.isLenient d = true →
    ∃ doc', e'.Holds d doc' ∧ doc'.handle = doc.handle.map Handle.unmapped
  /-- A document that has not been closed has the handle that it had at the start. -/
  own : ∀ d doc₀ doc', e₀.Holds d doc₀ → e'.Holds d doc' → doc'.closed = false →
    doc'.handle = doc₀.handle
  /-- Each document is as turning it canonical alone would have left it. -/
  alone : ∀ d, e'.content? d = (disable h c d e).2.content? d
  /-- What has become of a document has nothing to do with the others, nor with the order. -/
  independent : ∀ d f, Agree alike d (e.fileOf d) e f → Apart lasting f →
    (deactivate h c false f).2.content? d = e'.content? d
  /-- Whatever happens afterwards, as long as no document is observed again, setting a grammar has
  no effect on any document but this. -/
  deaf : ∀ later : List (Deed σ), (∀ d, .observe d ∉ later) →
    (∀ f, .elsewhere f ∈ later → ∀ s, I s → I (f s)) → ∀ d g d',
      (changeGrammar h c d g (workOn h c e' later)).2.content? d'
        = (workOn h c e' later).content? d'

section Main

variable (hI : h.Respects I) (hmodified : ∀ d s, I s → (h.checkModified d s).1 = .ok ())

include hI hmodified

/-- After the deactivation nobody is followed. -/
theorem Steady.deactivate (hP : Placing h I N P) (honce : Once P) (hs : Steady I N P e) :
    ∃ e', deactivate h c false e = (.ok (), e') ∧ e'.tracked = [] ∧ Steady I N P e' ∧
      Steady I N (Unfollowed fun _ => True) e' := by
  obtain ⟨e₁, hgiven, hu⟩ := forM_unobserve (List.range e.observations.length) e
  have hs₁ : Steady I N P e₁ := by
    have hkept : Preserves (Steady I N P)
        ((List.range e.observations.length).forM Editor.unobserve) :=
      Preserves.forM fun n _ => Steady.unobserve hP n
    have hs₁ := hkept e hs
    rwa [hgiven] at hs₁
  have hfree₁ : Steady I N (Unfollowed fun _ => True) e₁ := by
    refine ⟨hs₁.host, hs₁.count, hs₁.attached, fun d doc hdoc n _ hn => ?_⟩
    obtain ⟨doc₀, hdoc₀, hgone⟩ := hs.unfollowed_forM hP honce
      (List.range e.observations.length) (by rw [hgiven]; exact hdoc)
    obtain ⟨hnew, hold⟩ := hgone n hn
    -- there is no observation of such a number
    have hdocument := hs.attached d doc₀ n hdoc₀ hold
    rw [documentOf, List.getElem?_eq_none (by simpa using hnew)] at hdocument
    contradiction
  have hlenient (d : Nat) : (Editor.disableAll h c e₁.tracked e₁).2.isLenient d = false := by
    refine isLenient_disableAll ?_
    cases hd : e₁.isLenient d with
    | true => exact Or.inl (mem_tracked_of_isLenient hd)
    | false => exact Or.inr rfl
  refine ⟨_, deactivate_apply hgiven, rfl, ?_, ?_⟩
  · exact (Steady.disableAll hI hP hmodified e₁.tracked e₁ hs₁).cleared hlenient
  · exact (Steady.disableAll hI (placing_unfollowed _) hmodified e₁.tracked e₁ hfree₁).cleared
      hlenient

/-- After a deactivation nobody hears of a grammar any more, unless a document is observed again. -/
theorem Steady.unfollowed_workOn (hs : Steady I N (Unfollowed fun _ => True) e)
    {deeds : List (Deed σ)} (hobserve : ∀ d, .observe d ∉ deeds)
    (helsewhere : ∀ f, .elsewhere f ∈ deeds → ∀ s, I s → I (f s)) :
    Steady I N (Unfollowed fun _ => True) (workOn h c e deeds) := by
  refine workOn_induction (fun deed hdeed => ?_) hs
  refine Steady.perform hI (placing_unfollowed _) hmodified ?_ (fun d _ => ending_unfollowed _ d) ?_
  · rintro d observers rfl
    exact absurd hdeed (hobserve d)
  · rintro f rfl
    exact helsewhere f hdeed

/-- Whatever happens to the documents of an idle editor, they stay anchored in it. -/
theorem Idle.anchored_workOn (hidle : Idle I e₀) {deeds : List (Deed σ)}
    (helsewhere : ∀ f, .elsewhere f ∈ deeds → ∀ s, I s → I (f s)) :
    Steady I e₀.documents.length (Anchored e₀) (workOn h c e₀ deeds) := by
  refine workOn_induction (fun deed hdeed => ?_) hidle.steady
  refine Steady.perform hI (placing_anchored hidle) hmodified
    (fun d observers _ => welcoming_anchored d observers) (fun d _ => ending_anchored d) ?_
  rintro f rfl
  exact helsewhere f hdeed

/-- Whatever has happened before and whatever fails: a deactivation reaches every document, and each
document on its own. -/
theorem deactivate_workOn (hh : h.Separate alike lasting) (hidle : Idle I e₀)
    {deeds : List (Deed σ)} (helsewhere : ∀ f, .elsewhere f ∈ deeds → ∀ s, I s → I (f s))
    (hapart : Apart lasting (workOn h c e₀ deeds)) :
    ∃ e', deactivate h c false (workOn h c e₀ deeds) = (.ok (), e') ∧
      Deactivated h c I alike lasting e₀ (workOn h c e₀ deeds) e' := by
  have hs := hidle.anchored_workOn (c := c) hI hmodified helsewhere
  generalize workOn h c e₀ deeds = e at hs hapart
  obtain ⟨e', hr, htracked, hs', hfree'⟩ :=
    hs.deactivate hI hmodified (placing_anchored hidle) fun _ _ _ ha => ha.once
  -- What becomes of a document does not depend on the others.
  have hcontent (d : Nat) : e'.content? d = (disable h c d e).2.content? d := by
    rw [← content?_deactivate hh c hapart d, hr]
  have hown (d : Nat) (doc₀ doc' : Document κ) (hdoc₀ : e₀.Holds d doc₀) (hdoc' : e'.Holds d doc')
      (hclosed : doc'.closed = false) : doc'.handle = doc₀.handle := by
    obtain hsame | ⟨htrue, -⟩ := (hs'.placed d doc' hdoc').own doc₀ hdoc₀ hclosed
    · exact hsame
    · rw [isLenient, htracked] at htrue
      contradiction
  refine ⟨e', hr, ?_, ?_, hown, hcontent, ?_, ?_⟩
  · refine ⟨hs'.host, htracked, fun d doc n hdoc => hfree'.placed d doc hdoc n trivial, ?_⟩
    intro d doc handle hdoc hclosed hhandle
    obtain ⟨doc₀, hdoc₀⟩ : ∃ doc₀, e₀.Holds d doc₀ :=
      ⟨_, List.getElem?_eq_getElem (hs'.lt hdoc)⟩
    rw [hown d doc₀ doc hdoc₀ hdoc hclosed] at hhandle
    exact hidle.bare d doc₀ handle hdoc₀
      ((hs'.placed d doc hdoc).not_closed hdoc₀ hclosed) hhandle
  · intro d doc hdoc hlenient
    obtain ⟨l, hl⟩ := Option.isSome_iff_exists.mp hlenient
    obtain ⟨-, f, -, -, -, s, hhost, herror⟩ | ⟨e₁, doc₁, outcome, e₂, -, hdisable, hshape, -,
        hhandle, -⟩ := disable_ends hI c hdoc hs.host hl
    · rw [hmodified d s hhost] at herror
      contradiction
    have hsame := hcontent d
    rw [hdisable, content?_of_holds (hshape.holds hdoc)] at hsame
    obtain ⟨doc', hdoc', heq⟩ := Option.map_eq_some_iff.mp hsame
    exact ⟨doc', hdoc', (content_eq_iff.mp heq).2.2.trans hhandle⟩
  · intro d f hagree hapart'
    rw [content?_deactivate hh c hapart' d, hcontent d]
    exact ((own_disable hh c).agree hagree).2.content.symm
  · -- Nobody follows a document any more, so that a change of grammar changes nothing else.
    intro later hobserve hlater d g d'
    have hlate := hfree'.unfollowed_workOn (c := c) hI hmodified hobserve hlater
    have hfree (doc : Document κ) (n : Nat) (hdoc : Holds _ d doc) :=
      hlate.placed d doc hdoc n trivial
    exact (undisturbed_changeGrammar h c hfree g).content d'

end Main

end Dialects.Editor

/-! ## Documents on disk -/

namespace Dialects

namespace Registry

variable {φ α : Type}

/-- What is given when a converter set is asked for and every recipe is its own outcome. -/
def answer (r : Registry (Except Failure α) α) (l : String) : Except Failure α :=
  match r.built.lookup l with
  | some set => .ok set
  | none =>
    match r.recipes.lookup l with
    | none => .error (.unknownLanguage l)
    | some recipe => recipe

/-- A set that is built is the one that would be given anyway. -/
theorem answer_keep {r : Registry (Except Failure α) α} {l : String} {set : α}
    (hset : r.answer l = .ok set) : (r.keep l set).answer = r.answer := by
  funext l'
  by_cases hl : l' = l
  · subst hl
    have hbuilt : (r.keep l' set).built.lookup l' = some set :=
      lookup_append_self (lookup_filter_self l' r.built) set
    rw [hset, answer, hbuilt]
  · -- any other language has nothing to do with the new set
    have hbuilt : (r.keep l set).built.lookup l' = r.built.lookup l' :=
      (lookup_append_of_ne hl _ set).trans (lookup_filter_of_ne hl r.built)
    rw [answer, hbuilt]
    rfl

end Registry

namespace Directory

open Registry

/-- Asking for converters changes no answer. -/
theorem converters_apply (l : String) (s : Directory) :
    ∃ r, converters l s = (s.registry.answer l, { s with registry := r }) ∧
      r.answer = s.registry.answer := by
  rw [converters, Action.bind_apply, Action.ask_apply]
  simp only [Registry.request, Action.bind_apply]
  cases hbuilt : s.registry.built.lookup l with
  | some set =>
    refine ⟨s.registry, ?_, rfl⟩
    rw [answer, hbuilt]
    rfl
  | none =>
    cases hrecipe : s.registry.recipes.lookup l with
    | none =>
      refine ⟨s.registry, ?_, rfl⟩
      rw [answer, hbuilt, hrecipe]
      rfl
    | some recipe =>
      have hanswer : s.registry.answer l = recipe := by
        rw [answer, hbuilt, hrecipe]
      cases recipe with
      | error f =>
        refine ⟨s.registry, ?_, rfl⟩
        rw [hanswer]
        rfl
      | ok set =>
        refine ⟨s.registry.keep l set, ?_, answer_keep hanswer⟩
        rw [hanswer]
        rfl

/-- States of the disk that a part of it does not tell apart: the converters by what they answer, a
file by its path and everything that is stored, and a document not at all. -/
def Alike : Part → Directory → Directory → Prop
  | .converters, s, s' => s.registry.answer = s'.registry.answer
  | .file n, s, s' =>
    s.files[n]?.map DiskFile.path = s'.files[n]?.map DiskFile.path ∧ s.tree = s'.tree ∧
      s.refused = s'.refused
  | .document _, _, _ => True

/-- That a part of the disk is the same in two states is an equivalence. -/
theorem equivalence_alike (p : Part) : Equivalence (Alike p) := by
  cases p with
  | converters => exact ⟨fun _ => rfl, Eq.symm, Eq.trans⟩
  | file n =>
    exact ⟨fun _ => ⟨rfl, rfl, rfl⟩, fun h => ⟨h.1.symm, h.2.1.symm, h.2.2.symm⟩,
      fun h h' => ⟨h.1.trans h'.1, h.2.1.trans h'.2.1, h.2.2.trans h'.2.2⟩⟩
  | document d => exact ⟨fun _ => trivial, fun _ => trivial, fun _ _ => trivial⟩

/-- What is read under a path. -/
def reading (tree : Tree) (refused : List FileFault) (p : Path) : Except Failure (List Text) :=
  match tree.find? p with
  | none => .error (.missingFile p.toString)
  | some .folder => .error (.storage ("Cannot open for read: " ++ p.toString))
  | some (.file content) =>
    if refused.contains .read then .error (.storage ("Cannot open for read: " ++ p.toString))
    else
      match Utf8.decode content with
      | .error fault => .error (.undecodable fault)
      | .ok [] => .ok []
      | .ok t => .ok [t]

/-- A file gives what can be read under its path. -/
theorem read_apply {n : Nat} {s : Directory} {f : DiskFile} (hfile : s.files[n]? = some f) :
    read n s = (reading s.tree s.refused f.path, s) := by
  rw [read, Action.bind_apply, file_apply hfile, reading]
  simp only [Action.bind_apply, Action.ask_apply]
  cases s.tree.find? f.path with
  | none => rfl
  | some node =>
    cases node with
    | folder => rfl
    | file content =>
      simp only [refuses, Action.bind_apply, Action.ask_apply]
      split
      · rfl
      · cases Utf8.decode content with
        | error fault => rfl
        | ok t => cases t <;> rfl

/-- No part of the disk has to do with another one, and asking wears nothing off. -/
theorem separate : host.Separate Alike fun _ => True where
  equivalence := equivalence_alike
  lasting_converters := trivial
  path n s s' h := by
    show ((s.files[n]?.map DiskFile.path).getD _).toString = _
    rw [h.1]
    rfl
  read n := by
    have hread (s : Directory) : read n s = (((s.files[n]?.map DiskFile.path).elim
        (.error (.badIndex "no such file")) (reading s.tree s.refused)), s) := by
      cases hfile : s.files[n]? with
      | none => rw [read, Action.bind_apply, file_of_none hfile]; rfl
      | some f => exact read_apply hfile
    refine ⟨fun {s s'} h => ?_, fun {q} s _ => ?_⟩
    · show (read n s).1 = (read n s').1 ∧ Alike _ (read n s).2 (read n s').2
      rw [hread, hread, h.1, h.2.1, h.2.2]
      exact ⟨rfl, h⟩
    · show Alike q s (read n s).2
      rw [hread]
      exact (equivalence_alike q).refl s
  converters l := by
    refine ⟨fun {s s'} h => ?_, fun {q} s _ => ?_⟩
    · show (converters l s).1 = (converters l s').1 ∧
        Alike .converters (converters l s).2 (converters l s').2
      obtain ⟨r, hr, hsame⟩ := converters_apply l s
      obtain ⟨r', hr', hsame'⟩ := converters_apply l s'
      rw [hr, hr']
      exact ⟨congrFun h l, hsame.trans (Eq.trans h hsame'.symm)⟩
    · show Alike q s (converters l s).2
      obtain ⟨r, hr, hsame⟩ := converters_apply l s
      rw [hr]
      cases q with
      | converters => exact hsame.symm
      | file n => exact ⟨rfl, rfl, rfl⟩
      | document d => trivial
  convert k d t := ⟨fun h => ⟨rfl, h⟩, fun {q} s _ => (equivalence_alike q).refl s⟩
  checkModified d := ⟨fun h => ⟨rfl, h⟩, fun {q} s _ => (equivalence_alike q).refl s⟩
  checkEdit d := ⟨fun h => ⟨rfl, h⟩, fun {q} s _ => (equivalence_alike q).refl s⟩
  checkLoad d := ⟨fun h => ⟨rfl, h⟩, fun {q} s _ => (equivalence_alike q).refl s⟩

end Directory

namespace Editor

/-- Both documents are shown in the lenient dialect, and the user changes the first one. Then the
converters are gone, so that its text cannot be converted back. -/
def twoLinesUnconverted : List (Deed Directory) :=
  [.observe 0, .observe 1, .setGrammar 0 ⟨"source.lines.lenient", "Lenient lines"⟩,
    .setGrammar 1 ⟨"source.lines.lenient", "Lenient lines"⟩, .edit 0 (Text.ofString "x\ny\n"),
    .elsewhere fun s => { s with registry := .empty }]

/-- At the start nothing is followed, lenient or mapped. -/
theorem idle_twoLines : Idle (fun _ => True) twoLines := by
  refine ⟨trivial, rfl, launch_twoLines.alone, fun d doc handle hdoc _ hhandle => ?_⟩
  obtain ⟨base, hbase, hbare, -⟩ := launch_twoLines.own d doc hdoc
  obtain rfl := Option.some.inj (hbase.symm.trans hhandle)
  exact hbare

/-- The first document stays as it is but for its handle, and the second one is loaded anew. -/
theorem deactivate_twoLines :
    Idle (fun _ => True) twoLines ∧
      isLenient (workOn Directory.host lineSettings twoLines twoLinesUnconverted) 0 = true ∧
      isLenient (workOn Directory.host lineSettings twoLines twoLinesUnconverted) 1 = true ∧
      ∃ e', deactivate Directory.host lineSettings false
          (workOn Directory.host lineSettings twoLines twoLinesUnconverted) = (.ok (), e') ∧
        Idle (fun _ => True) e' ∧
        e'.content? 0 = some (Text.ofString "x\ny\n", true, some (.file 0)) ∧
        e'.content? 1 = some (Text.ofString "b;\n", false, some (.file 1)) := by
  have hfirst : isLenient (workOn Directory.host lineSettings twoLines twoLinesUnconverted) 0
      = true := by decide +kernel
  have hsecond : isLenient (workOn Directory.host lineSettings twoLines twoLinesUnconverted) 1
      = true := by decide +kernel
  have h₀ : (disable Directory.host lineSettings 0
      (workOn Directory.host lineSettings twoLines twoLinesUnconverted)).2.content? 0
        = some (Text.ofString "x\ny\n", true, some (.file 0)) := by decide +kernel
  have h₁ : (disable Directory.host lineSettings 1
      (workOn Directory.host lineSettings twoLines twoLinesUnconverted)).2.content? 1
        = some (Text.ofString "b;\n", false, some (.file 1)) := by decide +kernel
  have hapart : Apart (fun _ => True)
      (workOn Directory.host lineSettings twoLines twoLinesUnconverted) :=
    fun _ _ _ _ _ _ _ _ => trivial
  obtain ⟨e', hr, hdone⟩ := deactivate_workOn Directory.host.respects_true (fun _ _ _ => rfl)
    Directory.separate idle_twoLines (fun _ _ _ _ => trivial) hapart
  exact ⟨idle_twoLines, hfirst, hsecond, e', hr, hdone.idle, (hdone.alone 0).trans h₀,
    (hdone.alone 1).trans h₁⟩

end Editor

end Dialects

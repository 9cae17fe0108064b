import Dialects.Editor.Workspace
import Dialects.Proofs.Editor.Run

/-!
# Where documents stand

A controller follows any number of documents. They are observed, edited, loaded, saved and
destroyed, their grammars are set, and they are shown in one dialect or the other, in any order, and
any of this may fail. Where a document stands is its handle, whether it counts as lenient, who
follows it and whether it is closed. A property of this is kept by all that may happen
(`Steady.perform`), provided that the transitions to the lenient dialect and back keep it
(`Placing`): whoever follows a document through the controller does so through an observation of
this document, so that a change of its grammar changes no other document, however deep it is nested
(`Kept.setGrammar`).

## Main definitions

* `Deed`: what may happen in an editor, and `workOn`, the editor after some deeds;
* `Steady`: the invariant, of a property of where documents stand;
* `Placing`, `Welcoming` and `Ending`: what the property has to satisfy.

## Main results

* `kept_steadyAt`: a change of grammar keeps the invariant;
* `Steady.perform`: every deed does.
-/

namespace Dialects.Editor

open Dialects.Action

variable {σ κ : Type} {I : σ → Prop} {h : Host σ κ} {c : ControllerSettings}
  {e e' : Editor σ κ} {d n : Nat} {doc doc' : Document κ} {observers : List Observer}

/-! ## Deeds and runs -/

/-- What may happen in an editor. -/
inductive Deed (σ : Type) where
  /-- The controller begins to follow a document. -/
  | observe (d : Nat)
  /-- The controller stops following a document through an observation. -/
  | unobserve (n : Nat)
  /-- The grammar of a document is set. -/
  | setGrammar (d : Nat) (g : Grammar)
  /-- A document is turned lenient directly. -/
  | enable (d : Nat) (previous : Option Grammar) (language : String)
  /-- A document is turned canonical directly. -/
  | disable (d : Nat)
  /-- The user replaces the text of a document. -/
  | edit (d : Nat) (t : Text)
  /-- A document is loaded. -/
  | load (d : Nat)
  /-- A document is saved. -/
  | save (d : Nat)
  /-- A document ends. -/
  | destroy (d : Nat)
  /-- Something happens outside the editor: files are changed or renamed, or what will fail is. -/
  | elsewhere (f : σ → σ)

/-- Carries out a deed. -/
def Deed.perform (h : Host σ κ) (c : ControllerSettings) : Deed σ → Action (Editor σ κ) Unit
  | .observe d => do let _ ← Editor.observe h c d
  | .unobserve n => Editor.unobserve n
  | .setGrammar d g => changeGrammar h c d g
  | .enable d previous l => do let _ ← Editor.enable h c (changeGrammar h c) d previous l
  | .disable d => do let _ ← Editor.disable h c d
  | .edit d t => setText h d t
  | .load d => Editor.load h d
  | .save d => Editor.save h d
  | .destroy d => endDocument d
  | .elsewhere f => .change fun e => { e with host := f e.host }

/-- The editor after some deeds. A deed that fails ends there, and the next one follows. -/
def workOn (h : Host σ κ) (c : ControllerSettings) (e : Editor σ κ) (deeds : List (Deed σ)) :
    Editor σ κ :=
  deeds.foldl (fun e deed => (deed.perform h c e).2) e

/-- What every deed keeps, a run keeps. -/
theorem workOn_induction {Q : Editor σ κ → Prop} {deeds : List (Deed σ)}
    (hperform : ∀ deed ∈ deeds, Preserves Q (deed.perform h c)) (he : Q e) :
    Q (workOn h c e deeds) := by
  induction deeds generalizing e with
  | nil => exact he
  | cons deed deeds ih =>
    obtain ⟨hfirst, hrest⟩ := List.forall_mem_cons.mp hperform
    exact ih hrest (hfirst e he)

/-! ## Looking at documents and observations -/

/-- The document that is followed through an observation. -/
def documentOf (e : Editor σ κ) (n : Nat) : Option Nat := e.observations[n]?.map Observation.document

/-- What an observation has heard makes no difference to whom it follows. -/
theorem documentOf_noted (e : Editor σ κ) (n : Nat) (g : Grammar) :
    (e.noted n g).documentOf = e.documentOf := by
  funext m
  rw [documentOf, documentOf, noted, List.getElem?_modify]
  cases e.observations[m]? with
  | none => rfl
  | some o =>
    show some (if n = m then _ else o).document = some o.document
    split <;> rfl

/-- There is no document beyond the last one. -/
theorem document_of_none (hnone : e.documents[d]? = none) :
    document d e = (.error (.badIndex "no such document"), e) := by
  rw [document, Action.bind_apply, Action.ask_apply]
  simp only [hnone]
  rfl

/-- Where there is no document, none counts as lenient from then on. -/
theorem disable_of_none (h : Host σ κ) (c : ControllerSettings) (hdoc : e.documents[d]? = none) :
    (disable h c d e).2 = { e with tracked := e.tracked.filter fun t => t.1 ≠ d } := by
  cases htracked : e.tracked.lookup d with
  | none => rw [disable_of_free c htracked, filter_tracked_of_free htracked]
  | some l =>
    -- the document is forgotten before it is looked for
    obtain ⟨e₁, huntrack, he₁⟩ : ∃ e₁, Editor.untrack d e = (.ok (), e₁) ∧
        e₁ = { e with tracked := e.tracked.filter fun t => t.1 ≠ d } := ⟨_, rfl, rfl⟩
    have hdoc₁ : e₁.documents[d]? = none := by
      rw [he₁]
      exact hdoc
    rw [disable, Action.bind_apply, Action.ask_apply]
    simp only [htracked, Action.bind_apply, huntrack, document_of_none hdoc₁]
    exact he₁

/-- Setting the grammar of a document that is not there changes nothing. -/
theorem setGrammar_of_none (h : Host σ κ) (c : ControllerSettings) (hdoc : e.documents[d]? = none)
    (depth : Nat) (g : Grammar) : (setGrammar h c depth d g e).2 = e := by
  cases depth with
  | zero => rfl
  | succ depth => rw [Editor.setGrammar, Action.bind_apply, document_of_none hdoc]

/-- Turning a document lenient that is not there changes nothing. -/
theorem enable_of_none (h : Host σ κ) (c : ControllerSettings) (hdoc : e.documents[d]? = none)
    (revert : Nat → Grammar → Action (Editor σ κ) Unit) (previous : Option Grammar) (l : String) :
    (enable h c revert d previous l e).2 = e := by
  rw [Editor.enable, Action.bind_apply, Action.ask_apply]
  simp only []
  split
  · rfl
  · rw [Action.bind_apply, turnLenient, Action.bind_apply, document_of_none hdoc]

theorem documentOf_entered (e : Editor σ κ) (d : Nat) :
    (entered e d).documentOf e.observations.length = some d := by
  rw [documentOf, entered, List.getElem?_concat_length]
  rfl

/-- Following a document that is not there only puts the observation on the list. -/
theorem observe_of_none (h : Host σ κ) (c : ControllerSettings) (hdoc : e.documents[d]? = none) :
    (observe h c d e).2 = entered e d := by
  rw [Editor.observe, Action.bind_apply, Action.ask_apply]
  simp only [Action.bind_apply, Action.change_apply]
  rw [show { e with observations := e.observations ++ [⟨d, none⟩] } = entered e d from rfl,
    document_of_none (show (entered e d).documents[d]? = none from hdoc)]

/-- Each document comes from one of the same number, changed if it is the one to be changed. -/
theorem exists_of_modify {f : Document κ → Document κ} {d' : Nat}
    (hdoc : (modify d' f e).2.Holds d doc') :
    ∃ doc, e.Holds d doc ∧ (if d' = d then f doc else doc) = doc' := by
  simpa [Holds, Editor.modify, List.getElem?_modify] using hdoc

/-- Looking a document up leaves the editor alone. -/
theorem within_document (d : Nat) : Within I (document d : Action (Editor σ κ) (Document κ)) := by
  refine (Within.ask _).bind fun ds => ?_
  split
  · exact Within.pure _
  · exact Within.throw _

/-- The end of a document that is not there changes nothing. -/
theorem endDocument_of_none (hdoc : e.documents[d]? = none) : (endDocument d e).2 = e := by
  rw [endDocument, Action.bind_apply, document_of_none hdoc]

/-- A document that has been closed does not end again. -/
theorem endDocument_of_closed (hdoc : e.Holds d doc) (hclosed : doc.closed = true) :
    endDocument d e = (.ok (), e) := by
  rw [endDocument, Action.bind_of_ok (document_apply hdoc), if_pos hclosed]
  rfl

/-- A document is closed first, and deserted once its end has been announced. -/
theorem endDocument_of_open (hdoc : e.Holds d doc) (hopen : doc.closed = false) :
    endDocument d e = (announceEnd d >>= fun _ => Editor.modify d fun doc =>
        { doc with grammarObservers := .empty, endObservers := .empty })
      (e.put d { doc with closed := true }) := by
  rw [endDocument, Action.bind_of_ok (document_apply hdoc), if_neg (by rw [hopen]; simp),
    Action.bind_of_ok (modify_apply hdoc _)]

/-- A document that the controller no longer follows through the observation of a number. -/
def unfollowed (doc : Document κ) (n : Nat) : Document κ :=
  { doc with
    grammarObservers := doc.grammarObservers.unsubscribe (.controller n)
    endObservers := doc.endObservers.unsubscribe (.controller n) }

/-! ## The invariant -/

/-- There are `N` documents, each of which stands where `P` admits; who follows a document through
the controller follows this document. -/
structure Steady (I : σ → Prop) (N : Nat) (P : Nat → Document κ → Bool → Prop)
    (e : Editor σ κ) : Prop where
  host : I e.host
  count : e.documents.length = N
  attached : ∀ d doc n, e.Holds d doc → .controller n ∈ doc.grammarObservers.callbacks →
    e.documentOf n = some d
  placed : ∀ d doc, e.Holds d doc → P d doc (e.isLenient d)

/-- The property of where documents stand depends on nothing else of them, and is kept when a
document is no longer followed, when it gets a mapped handle or counts as lenient without a file,
and when it gets its handle back. -/
structure Placing (h : Host σ κ) (I : σ → Prop) (N : Nat) (P : Nat → Document κ → Bool → Prop) :
    Prop where
  congr : ∀ {d doc doc' t}, P d doc t → doc'.handle = doc.handle → doc'.closed = doc.closed →
    doc'.grammarObservers = doc.grammarObservers → doc'.endObservers = doc.endObservers → P d doc' t
  unsubscribed : ∀ {d doc t} n, P d doc t → P d (unfollowed doc n) t
  mapped : ∀ {d doc inner s} binding, d < N → I s → P d doc false → doc.handle = some inner →
    h.files.path inner.base s ≠ "" → P d { doc with handle := some (.mapped inner binding) } true
  unbacked : ∀ {d doc s}, d < N → I s → P d doc false →
    (∀ inner, doc.handle = some inner → h.files.path inner.base s = "") → P d doc true
  unmapped : ∀ {d doc}, d < N → P d doc true →
    P d { doc with handle := doc.handle.map Handle.unmapped } false

/-- The property is kept when the controller begins to follow the document, which has these
observers until then. -/
def Welcoming (P : Nat → Document κ → Bool → Prop) (d : Nat) (observers : List Observer) : Prop :=
  ∀ {doc t n}, doc.grammarObservers.callbacks = observers → .controller n ∉ observers →
    P d doc t → P d (followed doc n) t

/-- The property is kept when the document is closed and forgotten. -/
structure Ending (P : Nat → Document κ → Bool → Prop) (d : Nat) : Prop where
  closed : ∀ {doc t}, P d doc t → P d { doc with closed := true } t
  forgotten : ∀ {doc t}, doc.closed = true → P d doc t → P d doc false
  deserted : ∀ {doc t}, P d doc t →
    P d { doc with grammarObservers := .empty, endObservers := .empty } t

variable {N : Nat} {P : Nat → Document κ → Bool → Prop}

/-- Whether a document counts as lenient depends on its entry in the table alone. -/
theorem isLenient_congr (h : e'.tracked.lookup d = e.tracked.lookup d) :
    e'.isLenient d = e.isLenient d :=
  congrArg Option.isSome h

/-- A document of a steady editor has one of the first `N` numbers. -/
theorem Steady.lt (hs : Steady I N P e) (hdoc : e.Holds d doc) : d < N := by
  obtain ⟨hlt, -⟩ := List.getElem?_eq_some_iff.mp hdoc
  rwa [hs.count] at hlt

/-- Each document comes from one that stood where `P` admits. -/
theorem Steady.onward (hs : Steady I N P e) (hhost : I e'.host)
    (hcount : e'.documents.length = e.documents.length)
    (hobservations : ∀ n d, e.documentOf n = some d → e'.documentOf n = some d)
    (hdocuments : ∀ d doc', e'.Holds d doc' → ∃ doc, e.Holds d doc ∧
      (∀ n, .controller n ∈ doc'.grammarObservers.callbacks →
        .controller n ∈ doc.grammarObservers.callbacks ∨ e'.documentOf n = some d) ∧
      (P d doc (e.isLenient d) → P d doc' (e'.isLenient d))) :
    Steady I N P e' := by
  refine ⟨hhost, hcount.trans hs.count, fun d doc' n hdoc' hn => ?_, fun d doc' hdoc' => ?_⟩
  · obtain ⟨doc, hdoc, hobservers, -⟩ := hdocuments d doc' hdoc'
    rcases hobservers n hn with hold | hnew
    · exact hobservations n d (hs.attached d doc n hdoc hold)
    · exact hnew
  · obtain ⟨doc, hdoc, -, hplaced⟩ := hdocuments d doc' hdoc'
    exact hplaced (hs.placed d doc hdoc)

/-- The property says more than another one of each document. -/
theorem Steady.imp {P' : Nat → Document κ → Bool → Prop} (hs : Steady I N P e)
    (himp : ∀ d doc t, e.Holds d doc → P d doc t → P' d doc t) : Steady I N P' e :=
  ⟨hs.host, hs.count, hs.attached, fun d doc hdoc => himp d doc _ hdoc (hs.placed d doc hdoc)⟩

/-- A document that nobody follows has been added. -/
theorem Steady.append (hs : Steady I N P e)
    (hfree : ∀ n, .controller n ∉ doc.grammarObservers.callbacks)
    (hplaced : P N doc (e.isLenient N)) :
    Steady I (N + 1) P { e with documents := e.documents ++ [doc] } := by
  -- any document of the longer list was there before, or is the one that has been added
  have hcases {d : Nat} {doc' : Document κ} (hdoc' : (e.documents ++ [doc])[d]? = some doc') :
      e.Holds d doc' ∨ d = N ∧ doc' = doc := by
    obtain ⟨hlt, hget⟩ := List.getElem?_eq_some_iff.mp hdoc'
    rw [List.length_append, List.length_singleton, hs.count] at hlt
    by_cases hd : d = N
    · subst hd
      have hlast : (e.documents ++ [doc])[d]? = some doc := by
        rw [← hs.count, List.getElem?_concat_length]
      exact Or.inr ⟨rfl, Option.some.inj (hdoc'.symm.trans hlast)⟩
    · rw [List.getElem?_append_left (by rw [hs.count]; omega)] at hdoc'
      exact Or.inl hdoc'
  refine ⟨hs.host, ?_, fun d doc' n hdoc' hn => ?_, fun d doc' hdoc' => ?_⟩
  · rw [List.length_append, hs.count]
    rfl
  · obtain hold | ⟨-, rfl⟩ := hcases hdoc'
    · exact hs.attached d doc' n hold hn
    · exact absurd hn (hfree n)
  · obtain hold | ⟨rfl, rfl⟩ := hcases hdoc'
    · exact hs.placed d doc' hold
    · exact hplaced

/-- Nothing has changed about the documents. -/
theorem Steady.of_same (hs : Steady I N P e) (hhost : I e'.host)
    (hdocuments : e'.documents = e.documents) (htracked : e'.tracked = e.tracked)
    (hobservations : ∀ n d, e.documentOf n = some d → e'.documentOf n = some d) :
    Steady I N P e' := by
  refine hs.onward hhost (congrArg List.length hdocuments) hobservations fun d doc hdoc => ?_
  rw [Holds, hdocuments] at hdoc
  refine ⟨doc, hdoc, fun _ hn => Or.inl hn, fun hplaced => ?_⟩
  rw [isLenient_congr (congrArg (List.lookup d) htracked)]
  exact hplaced

/-- A new observation leaves a steady editor steady. -/
theorem Steady.enter (hs : Steady I N P e) (d : Nat) : Steady I N P (entered e d) := by
  refine hs.of_same hs.host rfl rfl fun n d' hn => ?_
  obtain ⟨o, ho, hdocument⟩ := Option.map_eq_some_iff.mp hn
  obtain ⟨hlt, -⟩ := List.getElem?_eq_some_iff.mp ho
  rw [documentOf, entered, List.getElem?_append_left hlt, ho]
  exact congrArg some hdocument

/-- What only the host does leaves a steady editor steady. -/
theorem Steady.of_hostOnly (hs : Steady I N P e) (hhostOnly : HostOnly I e e') :
    Steady I N P e' := by
  refine hs.of_same (hhostOnly.host hs.host) hhostOnly.documents hhostOnly.tracked fun n d hn => ?_
  rw [documentOf, hhostOnly.observations]
  exact hn

/-- What is done within the host leaves a steady editor steady. -/
theorem Steady.of_within {α : Type} {a : Action (Editor σ κ) α} (ha : Within I a) :
    Preserves (Steady I N P) a :=
  fun e hs => hs.of_hostOnly (ha e)

/-- One document has been replaced, and perhaps counts otherwise than before. -/
theorem Steady.of_shape {t : List (Nat × String)} (hs : Steady I N P e)
    (hdoc : e.Holds d doc) (hshape : Shape I e d doc' t e')
    (hobservers : doc'.grammarObservers = doc.grammarObservers)
    (hother : ∀ d', d' ≠ d → t.lookup d' = e.tracked.lookup d')
    (hplaced : P d doc (e.isLenient d) → P d doc' (t.lookup d).isSome) : Steady I N P e' := by
  refine hs.onward (hshape.host hs.host) ?_ ?_ fun d' doc'' hdoc'' => ?_
  · rw [hshape.documents, List.length_set]
  · intro n d hn
    rw [documentOf, hshape.observations]
    exact hn
  -- the replaced document is placed as it should be, and any other one is where it was
  by_cases hd : d' = d
  · subst hd
    obtain rfl := (hshape.holds hdoc).unique hdoc''
    refine ⟨doc, hdoc, fun n hn => Or.inl (hobservers ▸ hn), ?_⟩
    rw [show e'.isLenient d' = (t.lookup d').isSome by rw [isLenient, hshape.tracked]]
    exact hplaced
  · rw [Holds, hshape.documents, List.getElem?_set_ne (Ne.symm hd)] at hdoc''
    refine ⟨doc'', hdoc'', fun n hn => Or.inl hn, ?_⟩
    rw [isLenient_congr (by rw [hshape.tracked, hother d' hd])]
    exact id

/-- A document has been changed. It may have got new followers, who follow this document. -/
theorem Steady.modify {f : Document κ → Document κ} (hs : Steady I N P e) (d : Nat)
    (hobservers : ∀ doc n, e.Holds d doc → .controller n ∈ (f doc).grammarObservers.callbacks →
      .controller n ∈ doc.grammarObservers.callbacks ∨ e.documentOf n = some d)
    (hplaced : ∀ doc t, e.Holds d doc → P d doc t → P d (f doc) t) :
    Steady I N P (modify d f e).2 := by
  refine hs.onward hs.host (List.length_modify ..) (fun _ _ hn => hn) fun d' doc' hdoc' => ?_
  obtain ⟨doc, hdoc, rfl⟩ := exists_of_modify hdoc'
  refine ⟨doc, hdoc, ?_⟩
  -- a follower that the changed document had not had before follows it
  by_cases hd : d = d'
  · subst hd
    rw [if_pos rfl]
    exact ⟨fun n hn => hobservers doc n hdoc hn, hplaced doc _ hdoc⟩
  · rw [if_neg hd]
    exact ⟨fun n hn => Or.inl hn, id⟩

/-! ## The transitions -/

/-- The editor with a document that has given observers; the documents that are followed through
observations are given too. -/
structure SteadyAt (I : σ → Prop) (N : Nat) (P : Nat → Document κ → Bool → Prop) (d : Nat)
    (observers : List Observer) (documents : Nat → Option Nat) (e : Editor σ κ) : Prop
    extends Steady I N P e where
  holds : ∃ doc, e.Holds d doc ∧ doc.grammarObservers.callbacks = observers
  known : e.documentOf = documents

/-- A steady editor is steady around each of its documents. -/
theorem Steady.at (hs : Steady I N P e) (hdoc : e.Holds d doc) :
    SteadyAt I N P d doc.grammarObservers.callbacks e.documentOf e :=
  ⟨hs, ⟨doc, hdoc, rfl⟩, rfl⟩

section Transitions

variable {documents : Nat → Option Nat}

/-- A step of a document leaves the editor steady around it, if it keeps the observers and the
property that is asked for. -/
theorem SteadyAt.of_shape {t : List (Nat × String)}
    (hs : SteadyAt I N P d observers documents e) (hdoc : e.Holds d doc)
    (hshape : Shape I e d doc' t e') (hobservers : doc'.grammarObservers = doc.grammarObservers)
    (hother : ∀ d', d' ≠ d → t.lookup d' = e.tracked.lookup d')
    (hplaced : P d doc (e.isLenient d) → P d doc' (t.lookup d).isSome) :
    SteadyAt I N P d observers documents e' := by
  obtain ⟨doc₀, hdoc₀, hsame⟩ := hs.holds
  obtain rfl := hdoc.unique hdoc₀
  refine ⟨hs.toSteady.of_shape hdoc hshape hobservers hother hplaced,
    ⟨doc', hshape.holds hdoc, by rw [hobservers, hsame]⟩, ?_⟩
  rw [← hs.known]
  funext n
  rw [documentOf, documentOf, hshape.observations]

/-- What only the host does leaves an editor steady around a document. -/
theorem SteadyAt.of_hostOnly (hs : SteadyAt I N P d observers documents e)
    (hhostOnly : HostOnly I e e') : SteadyAt I N P d observers documents e' := by
  obtain ⟨doc, hdoc, -⟩ := hs.holds
  exact hs.of_shape hdoc ((Shape.refl hdoc).hostOnly hhostOnly) rfl (fun _ _ => rfl) id

/-- An observation that has been entered is of the document that it was entered for. -/
theorem SteadyAt.document_of_entered {o : Observation}
    (hs : SteadyAt I N P d observers (entered e n).documentOf e')
    (ho : e'.observations[e.observations.length]? = some o) : o.document = n := by
  have hdocument := documentOf_entered e n
  rw [← hs.known, documentOf, ho] at hdocument
  exact Option.some.inj hdocument

/-- The observers of the document are in place. -/
theorem SteadyAt.attachedAt (hs : SteadyAt I N P d observers documents e) :
    Attached d observers e := by
  obtain ⟨doc, hdoc, rfl⟩ := hs.holds
  refine ⟨⟨doc, hdoc, rfl⟩, fun n o hn ho => ?_⟩
  have hdocument := hs.toSteady.attached d doc n hdoc hn
  rw [documentOf, ho] at hdocument
  exact Option.some.inj hdocument

/-- A document that is not backed has no path. -/
theorem path_of_not_backed (hback : isBacked h e doc = false) {inner : Handle (Binding κ)}
    (hinner : doc.handle = some inner) : h.files.path inner.base e.host = "" := by
  simpa [isBacked, path?, hinner] using hback

/-- A document that is backed has a path. -/
theorem path_of_backed (hback : isBacked h e doc = true) {inner : Handle (Binding κ)}
    (hinner : doc.handle = some inner) : h.files.path inner.base e.host ≠ "" := by
  simpa [isBacked, path?, hinner] using hback

variable (hI : h.Respects I) (hP : Placing h I N P)
  (hmodified : ∀ d s, I s → (h.checkModified d s).1 = .ok ())

include hI hP

/-- Turning a document lenient leaves the editor steady around it. -/
theorem SteadyAt.turnLenient (previous : Option Grammar) (l : String)
    (hs : SteadyAt I N P d observers documents e) (hfree : e.tracked.lookup d = none) :
    SteadyAt I N P d observers documents (turnLenient h c d previous l e).2 := by
  obtain ⟨doc, hdoc, -⟩ := hs.holds
  have hlt := hs.toSteady.lt hdoc
  obtain ⟨e', f, hhostOnly, hr, -⟩ | ⟨e', f, hhostOnly, hr⟩ |
      ⟨e', doc', e₁, hfirst, hr, hshape, hshown⟩ :=
    turnLenient_ends hI c hdoc hs.host hfree previous l
  · -- neither a failure nor a refusal has touched the document
    rw [hr]
    exact hs.of_hostOnly hhostOnly
  · rw [hr]
    exact hs.of_hostOnly hhostOnly
  have hhost : I e₁.host := hfirst.host hs.host
  rw [hr]
  refine hs.of_shape hdoc hshape hshown.akin.grammarObservers
    (fun d' hd => lookup_append_of_ne hd e.tracked l) fun hplaced => ?_
  have hfalse : e.isLenient d = false := by rw [isLenient, hfree]; rfl
  rw [hfalse] at hplaced
  rw [lookup_append_self hfree l]
  -- whether its handle has been mapped depends on whether the file was seen when it was asked for
  cases hback : isBacked h e₁ doc with
  | true =>
    obtain ⟨inner, binding, hinner, hhandle⟩ := hshown.mapped hback
    exact hP.congr (hP.mapped binding hlt hhost hplaced hinner (path_of_backed hback hinner))
      hhandle hshown.akin.closed hshown.akin.grammarObservers hshown.akin.endObservers
  | false =>
    exact hP.congr (hP.unbacked hlt hhost hplaced fun inner => path_of_not_backed hback)
      (hshown.unbacked hback) hshown.akin.closed hshown.akin.grammarObservers
      hshown.akin.endObservers

include hmodified

/-- Turning the lenient mode off leaves the editor steady around the document. -/
theorem SteadyAt.disable :
    Preserves (SteadyAt I N P d observers documents) (disable h c d) := by
  intro e hs
  obtain ⟨doc, hdoc, -⟩ := hs.holds
  cases htracked : e.tracked.lookup d with
  | none =>
    rw [disable_of_free c htracked]
    exact hs
  | some l =>
    obtain ⟨-, f, -, -, -, s, hhost, herror⟩ | ⟨e', doc', outcome, -, -, hr, hshape, hakin,
        hhandle, -⟩ :=
      disable_ends hI c hdoc hs.host htracked
    · -- that it cannot be told whether the document is modified has been excluded
      rw [hmodified d s hhost] at herror
      contradiction
    rw [hr]
    refine hs.of_shape hdoc hshape hakin.grammarObservers
      (fun d' hd => lookup_filter_of_ne hd e.tracked) fun hplaced => ?_
    have htrue : e.isLenient d = true := by rw [isLenient, htracked]; rfl
    rw [htrue] at hplaced
    rw [lookup_filter_self d e.tracked]
    exact hP.congr (hP.unmapped (hs.toSteady.lt hdoc) hplaced) hhandle hakin.closed
      hakin.grammarObservers hakin.endObservers

variable (c) in
/-- What keeps a change of grammar steady. -/
theorem kept_steadyAt (d : Nat) (observers : List Observer) (documents : Nat → Option Nat) :
    Kept h c d observers (SteadyAt I N P d observers documents) where
  attached _ hs := hs.attachedAt
  grammar _ _ hs _ hdoc :=
    hs.of_shape hdoc ((Shape.refl hdoc).put _) rfl (fun _ _ => rfl)
      fun hplaced => hP.congr hplaced rfl rfl rfl rfl
  mark _ _ _ hs := ⟨hs.toSteady.of_same hs.host rfl rfl fun _ _ hn => hn, hs.holds, hs.known⟩
  noted n g e hs := by
    refine ⟨hs.toSteady.of_same hs.host rfl rfl fun m d hm => ?_, hs.holds, ?_⟩
    · rw [documentOf_noted]
      exact hm
    · rw [documentOf_noted]
      exact hs.known
  disable := SteadyAt.disable hI hP hmodified
  lenient previous l _ hs hfree := hs.turnLenient hI hP previous l hfree

/-! ## Deeds -/

/-- Changes of grammar leave a steady editor steady, however deep they are nested. -/
theorem Steady.setGrammar (depth : Nat) (d : Nat) (g : Grammar) :
    Preserves (Steady I N P) (setGrammar h c depth d g) := by
  intro e hs
  cases hdoc : e.documents[d]? with
  | some doc =>
    exact ((kept_steadyAt c hI hP hmodified d _ _).setGrammar depth g e (hs.at hdoc)).toSteady
  | none =>
    rw [setGrammar_of_none h c hdoc]
    exact hs

/-- Turning the lenient mode on leaves a steady editor steady. -/
theorem Steady.enable (d : Nat) (previous : Option Grammar) (l : String) :
    Preserves (Steady I N P) (enable h c (changeGrammar h c) d previous l) := by
  intro e hs
  cases hdoc : e.documents[d]? with
  | some doc =>
    have hkept := kept_steadyAt c hI hP hmodified d doc.grammarObservers.callbacks e.documentOf
    exact (hkept.enable (hkept.setGrammar maxNesting) previous l e (hs.at hdoc)).toSteady
  | none =>
    rw [enable_of_none h c hdoc]
    exact hs

/-- Turning the lenient mode off leaves a steady editor steady. -/
theorem Steady.disable (d : Nat) : Preserves (Steady I N P) (disable h c d) := by
  intro e hs
  cases hdoc : e.documents[d]? with
  | some doc =>
    exact ((kept_steadyAt c hI hP hmodified d _ _).disable e (hs.at hdoc)).toSteady
  | none =>
    -- there is no such document, so that nothing stands otherwise than before
    rw [disable_of_none h c hdoc]
    refine hs.onward hs.host rfl (fun _ _ hn => hn) fun d' doc hdoc' => ?_
    have hne : d' ≠ d := by
      rintro rfl
      rw [show e.documents[d']? = some doc from hdoc'] at hdoc
      contradiction
    refine ⟨doc, hdoc', fun _ hn => Or.inl hn, fun hplaced => ?_⟩
    show P d' doc ((e.tracked.filter fun p => p.1 ≠ d).lookup d').isSome
    rw [lookup_filter_of_ne hne]
    exact hplaced

/-- Following a document leaves a steady editor steady, if the property allows for one more
observation. -/
theorem Steady.observe (hs : Steady I N P e)
    (hwelcoming : ∀ doc, e.Holds d doc → Welcoming P d doc.grammarObservers.callbacks) :
    Steady I N P (observe h c d e).2 := by
  -- the observation is entered before the document is looked at, so that whatever the first
  -- grammar leads to finds the observation in place
  have hs₁ := hs.enter d
  cases hdoc : e.documents[d]? with
  | none =>
    rw [observe_of_none h c hdoc]
    exact hs₁
  | some doc =>
    have hdoc₁ : (entered e d).Holds d doc := hdoc
    -- nobody can have followed anything through the observation yet
    have hfresh : .controller e.observations.length ∉ doc.grammarObservers.callbacks := by
      intro hn
      have hdocument := hs.attached d doc _ hdoc hn
      rw [documentOf, List.getElem?_eq_none (Nat.le_refl _)] at hdocument
      contradiction
    have hkept := kept_steadyAt c hI hP hmodified d doc.grammarObservers.callbacks
      (entered e d).documentOf
    have hfollow : SteadyAt I N P d doc.grammarObservers.callbacks (entered e d).documentOf
        (follow h c (changeGrammar h c) e.observations.length doc.grammar (entered e d)).2 :=
      hkept.follow (hkept.setGrammar maxNesting) (fun _ _ hs' => hs'.document_of_entered)
        doc.grammar (entered e d) (hs₁.at hdoc₁)
    rw [observe_eq h c hdoc, Action.bind_apply]
    rcases hr : follow h c (changeGrammar h c) e.observations.length doc.grammar (entered e d)
      with ⟨f | _, e₂⟩
    · rw [hr] at hfollow
      exact hfollow.toSteady
    · rw [hr] at hfollow
      obtain ⟨doc₂, hdoc₂, hsame⟩ := hfollow.holds
      refine hfollow.toSteady.modify d (fun doc' n hdoc' hn => ?_) fun doc' t hdoc' hplaced => ?_
      · rw [followed, Emitter.callbacks_subscribe, List.mem_append, List.mem_singleton] at hn
        rcases hn with hold | hlast
        · exact Or.inl hold
        · obtain rfl := Observer.controller.inj hlast
          rw [hfollow.known]
          exact Or.inr (documentOf_entered e d)
      · obtain rfl := hdoc₂.unique hdoc'
        exact hwelcoming doc hdoc hsame hfresh hplaced

omit hI hmodified in
/-- The end of an observation leaves a steady editor steady. -/
theorem Steady.unobserve (n : Nat) :
    Preserves (Steady I N P) (unobserve n : Action (Editor σ κ) Unit) := by
  refine (Steady.of_within (Within.ask _)).bind fun os => ?_
  split
  · exact Preserves.pure _
  · refine fun e hs => hs.modify _ (fun doc n _ hn => Or.inl (List.mem_of_mem_erase hn)) ?_
    exact fun doc t _ hplaced => hP.unsubscribed n hplaced

omit hI hmodified in
/-- A change of a document that makes no difference to where it stands. -/
theorem Steady.congr {f : Document κ → Document κ} (d : Nat)
    (hf : ∀ doc, (f doc).handle = doc.handle ∧ (f doc).closed = doc.closed ∧
      (f doc).grammarObservers = doc.grammarObservers ∧ (f doc).endObservers = doc.endObservers) :
    Preserves (Steady I N P) (Editor.modify d f) := by
  intro e hs
  refine hs.modify d (fun doc n _ hn => Or.inl ?_) fun doc t _ hplaced => ?_
  · rw [(hf doc).2.2.1] at hn
    exact hn
  · obtain ⟨hhandle, hclosed, hgrammar, hend⟩ := hf doc
    exact hP.congr hplaced hhandle hclosed hgrammar hend

omit hmodified in
/-- Replacing a text leaves a steady editor steady. -/
theorem Steady.edit (d : Nat) (t : Text) : Preserves (Steady I N P) (setText h d t) := by
  refine (Steady.of_within (Confined.outside (hI.checkEdit d)).within).bind fun _ => ?_
  refine Steady.congr hP d fun doc => ?_
  split <;> exact ⟨rfl, rfl, rfl, rfl⟩

omit hmodified in
theorem Steady.load (d : Nat) : Preserves (Steady I N P) (load h d) := by
  refine (Steady.of_within (Confined.outside (hI.checkLoad d)).within).bind fun _ => ?_
  refine (Steady.of_within (within_document d)).bind fun doc => ?_
  split
  · exact Preserves.pure _
  · refine (Steady.of_within (confined_read hI _).within).bind fun chunks => ?_
    exact Steady.congr hP d fun doc => ⟨rfl, rfl, rfl, rfl⟩

omit hmodified in
theorem Steady.save (d : Nat) : Preserves (Steady I N P) (save h d) := by
  refine (Steady.of_within (within_document d)).bind fun doc => ?_
  split
  · exact Preserves.throw _
  · refine (Steady.of_within (confined_store hI _ _).within).bind fun _ => ?_
    exact Steady.congr hP d fun doc => ⟨rfl, rfl, rfl, rfl⟩

omit hI hP hmodified in
/-- A closed document stays closed when documents are changed that stay so. -/
theorem preserves_closed {f : Document κ → Document κ} (hf : ∀ doc, (f doc).closed = doc.closed)
    (d d' : Nat) : Preserves (fun e : Editor σ κ => ∀ doc, e.Holds d doc → doc.closed = true)
      (Editor.modify d' f) := by
  intro e hclosed doc' hdoc'
  obtain ⟨doc, hdoc, rfl⟩ := exists_of_modify hdoc'
  split
  · exact (hf doc).trans (hclosed doc hdoc)
  · exact hclosed doc hdoc

/-- A document has been closed, so that it may be forgotten. -/
structure SteadyClosed (I : σ → Prop) (N : Nat) (P : Nat → Document κ → Bool → Prop) (d : Nat)
    (e : Editor σ κ) : Prop extends Steady I N P e where
  closed : ∀ doc, e.Holds d doc → doc.closed = true

omit hI hmodified in
/-- The end of an observation leaves a closed document closed. -/
theorem SteadyClosed.unobserve (n : Nat) :
    Preserves (SteadyClosed I N P d) (unobserve n : Action (Editor σ κ) Unit) := by
  intro e hs
  -- an observation that is given up closes or opens no document
  have hclosed : Preserves (fun e : Editor σ κ => ∀ doc, e.Holds d doc → doc.closed = true)
      (Editor.unobserve n) := by
    refine (Preserves.ask _).bind fun os => ?_
    split
    · exact Preserves.pure _
    · refine preserves_closed ?_ d _
      exact fun _ => rfl
  exact ⟨Steady.unobserve hP n e hs.toSteady, hclosed e hs.closed⟩

omit hI hP hmodified in
/-- Forgetting a closed document leaves the editor steady. -/
theorem SteadyClosed.untrack (hending : Ending P d) :
    Preserves (SteadyClosed I N P d) (untrack d : Action (Editor σ κ) Unit) := by
  intro e hs
  refine ⟨hs.toSteady.onward hs.host rfl (fun _ _ hn => hn) fun d' doc hdoc => ?_, hs.closed⟩
  refine ⟨doc, hdoc, fun _ hn => Or.inl hn, fun hplaced => ?_⟩
  -- only the document itself is forgotten, and it is closed
  by_cases hd : d' = d
  · subst hd
    have hfalse : (Editor.untrack d' e).2.isLenient d' = false :=
      congrArg Option.isSome (lookup_filter_self d' e.tracked)
    rw [hfalse]
    exact hending.forgotten (hs.closed doc hdoc) hplaced
  · show P d' doc ((e.tracked.filter fun p => p.1 ≠ d).lookup d').isSome
    rw [lookup_filter_of_ne hd]
    exact hplaced

omit hI hmodified in
/-- Who is told that a document is gone forgets this document, and nothing else. -/
theorem SteadyClosed.announceEnd (hending : Ending P d) :
    Preserves (SteadyClosed I N P d) (announceEnd d : Action (Editor σ κ) Unit) := by
  refine Preserves.bind (fun e hs => ?_) fun doc => Preserves.forM fun x _ => ?_
  · -- looking up the document changes nothing
    have hsame := within_document (I := I) d e
    refine ⟨hs.toSteady.of_hostOnly hsame, fun doc hdoc => hs.closed doc ?_⟩
    rw [Holds, hsame.documents] at hdoc
    exact hdoc
  · cases x with
    | controller n =>
      exact (SteadyClosed.unobserve hP n).bind fun _ => SteadyClosed.untrack hending
    | listener id name =>
      exact fun e hs => ⟨hs.toSteady.of_same hs.host rfl rfl fun _ _ hn => hn, hs.closed⟩

omit hI hP hmodified in
/-- Taking all observers from a closed document leaves the editor steady. -/
theorem SteadyClosed.desert (hending : Ending P d) :
    Preserves (SteadyClosed I N P d) (Editor.modify d fun doc =>
      { doc with grammarObservers := .empty, endObservers := .empty }) := by
  intro e hs
  refine ⟨hs.toSteady.modify d (fun _ _ _ hn => absurd hn List.not_mem_nil)
    fun _ _ _ hplaced => hending.deserted hplaced, preserves_closed ?_ d d e hs.closed⟩
  exact fun _ => rfl

omit hI hmodified in
/-- Once it is closed, a document may be forgotten. -/
theorem Steady.destroy (hending : Ending P d) :
    Preserves (Steady I N P) (endDocument d : Action (Editor σ κ) Unit) := by
  intro e hs
  cases hdoc : e.documents[d]? with
  | none =>
    rw [endDocument_of_none hdoc]
    exact hs
  | some doc =>
    cases hclosed : doc.closed with
    | true =>
      rw [endDocument_of_closed hdoc hclosed]
      exact hs
    | false =>
      -- from here on the document is closed, which the rest of its end keeps
      have hs₁ : SteadyClosed I N P d (e.put d { doc with closed := true }) := by
        refine ⟨?_, fun doc₁ hdoc₁ => ?_⟩
        · have hs₁ := hs.modify (f := fun doc => { doc with closed := true }) d
            (fun _ _ _ hn => Or.inl hn) fun _ _ _ hplaced => hending.closed hplaced
          rwa [modify_apply hdoc] at hs₁
        · rw [← (Holds.put hdoc _).unique hdoc₁]
      rw [endDocument_of_open hdoc hclosed]
      exact (((SteadyClosed.announceEnd hP hending).bind fun _ =>
        SteadyClosed.desert hending) _ hs₁).toSteady

/-- Every deed keeps the invariant, provided that the documents that are observed may be followed
and those that are destroyed may end. -/
theorem Steady.perform {deed : Deed σ}
    (hobserve : ∀ d observers, deed = .observe d → Welcoming P d observers)
    (hdestroy : ∀ d, deed = .destroy d → Ending P d)
    (helsewhere : ∀ f, deed = .elsewhere f → ∀ s, I s → I (f s)) :
    Preserves (Steady I N P) (deed.perform h c) := by
  cases deed with
  | observe d =>
    refine Preserves.bind (fun e hs => ?_) fun _ => Preserves.pure _
    exact Steady.observe hI hP hmodified hs fun doc _ => hobserve d _ rfl
  | unobserve n => exact Steady.unobserve hP n
  | setGrammar d g => exact Steady.setGrammar hI hP hmodified maxNesting d g
  | enable d previous l =>
    exact (Steady.enable hI hP hmodified d previous l).bind fun _ => Preserves.pure _
  | disable d => exact (Steady.disable hI hP hmodified d).bind fun _ => Preserves.pure _
  | edit d t => exact Steady.edit hI hP d t
  | load d => exact Steady.load hI hP d
  | save d => exact Steady.save hI hP d
  | destroy d => exact Steady.destroy hP (hdestroy d rfl)
  | elsewhere f =>
    exact fun e hs => hs.of_same (helsewhere f rfl e.host hs.host) rfl rfl fun _ _ hn => hn

end Transitions

end Dialects.Editor

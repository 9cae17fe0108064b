import Dialects.Proofs.Editor.Attendance

/-!
# While nothing fails

Which text a document has when its dialect has changed is said by what the host answers: by what the
converters make of a text, and by what is read from a file. As long as none of this fails, an action
that asks the host gives the same result in all states of the host that cannot be told apart
(`Gives`), so that what has been asked meanwhile makes no difference.

A document that is turned canonical gets the text `Host.restored`. A document that is opened as
lenient gets the text `Host.opening`: nothing is converted then but what is read from a file.

## Main definitions

* `Host.converted`, `Host.stored` and `Host.shown`: what the host answers;
* `Gives`: an action that asks the host, and gives a result.

## Main results

* `content?_disable`: the document that `disable` leaves;
* `observe_ok`: the document that `observe` leaves.
-/

namespace Dialects

variable {σ κ : Type}

/-! ## Answers of the host -/

namespace Host

variable (h : Host σ κ) (s : σ)

/-- A conversion by the converters of a language. -/
def converted (l : String) (direction : Direction) (t : Text) : Except Failure Text :=
  (h.converters l s).1 >>= fun set => (h.convert set direction t s).1

/-- What is stored in a file. -/
def stored (n : Nat) : Except Failure Text := (h.files.read n s).1.map List.flatten

/-- What is shown of a file in the lenient dialect. It is converted chunk by chunk. -/
def shown (l : String) (n : Nat) : Except Failure Text :=
  (h.files.read n s).1 >>= fun chunks =>
    (chunks.mapM (h.converted s l .toLenient)).map List.flatten

variable {h s}

/-- A conversion succeeds with the converters that are given. -/
theorem exists_of_converted {l : String} {direction : Direction} {t t' : Text}
    (ht : h.converted s l direction t = .ok t') :
    ∃ set, (h.converters l s).1 = .ok set ∧ (h.convert set direction t s).1 = .ok t' := by
  rw [converted] at ht
  cases hset : (h.converters l s).1 with
  | error f =>
    rw [hset] at ht
    contradiction
  | ok set =>
    rw [hset] at ht
    exact ⟨set, rfl, ht⟩

/-- What is stored is what can be read. -/
theorem exists_of_stored {n : Nat} {t : Text} (ht : h.stored s n = .ok t) :
    ∃ chunks, (h.files.read n s).1 = .ok chunks ∧ chunks.flatten = t := by
  rw [stored] at ht
  cases hchunks : (h.files.read n s).1 with
  | error f =>
    rw [hchunks] at ht
    contradiction
  | ok chunks =>
    rw [hchunks] at ht
    exact ⟨chunks, rfl, Except.ok.inj ht⟩

/-- What is shown is what can be read, converted chunk by chunk. -/
theorem exists_of_shown {l : String} {n : Nat} {t : Text} (ht : h.shown s l n = .ok t) :
    ∃ chunks shown, (h.files.read n s).1 = .ok chunks ∧
      chunks.mapM (h.converted s l .toLenient) = .ok shown ∧ shown.flatten = t := by
  rw [shown] at ht
  cases hchunks : (h.files.read n s).1 with
  | error f =>
    rw [hchunks] at ht
    contradiction
  | ok chunks =>
    rw [hchunks] at ht
    replace ht : (chunks.mapM (h.converted s l .toLenient)).map List.flatten = .ok t := ht
    cases hshown : chunks.mapM (h.converted s l .toLenient) with
    | error f =>
      rw [hshown] at ht
      contradiction
    | ok shown =>
      rw [hshown] at ht
      exact ⟨chunks, shown, rfl, hshown, Except.ok.inj ht⟩

variable (h s)

/-- The file of a document, unless its path is empty. -/
def backing (doc : Document κ) : Option Nat := doc.file?.filter fun n => h.files.path n s ≠ ""

/-- The text of a lenient document that is turned canonical. -/
def restored (l : String) (doc : Document κ) : Except Failure Text :=
  if doc.modified then h.converted s l .toCanonical doc.text
  else (h.backing s doc).elim (.ok doc.text) (h.stored s)

/-- The text of a document that is opened as lenient. A text that is modified is taken to be lenient
already. -/
def opening (l : String) (doc : Document κ) : Except Failure Text :=
  if doc.modified then .ok doc.text else (h.backing s doc).elim (.ok doc.text) (h.shown s l)

/-- The text of a document that is turned lenient. A modified text is converted unless it is taken
to be lenient already, and any other is loaded anew if this is wanted. -/
def turned (reload convert : Bool) (l : String) (doc : Document κ) : Except Failure Text :=
  if doc.modified then
    if convert then h.converted s l .toLenient doc.text else .ok doc.text
  else if reload then (h.backing s doc).elim (.ok doc.text) (h.shown s l) else .ok doc.text

/-- Another text makes no difference to what is read from a file. -/
theorem opening_text (l : String) (doc : Document κ) (t : Text) :
    h.opening s l { doc with text := t }
      = if doc.modified then .ok t else (h.backing s doc).elim (.ok t) (h.shown s l) := rfl

end Host

namespace Editor

open Dialects.Action

/-- The state cannot be told apart from a given one by asking any part of it. -/
def Resembles (alike : Part → σ → σ → Prop) (s s' : σ) : Prop := ∀ p, alike p s s'

/-- The host resembles the given state. -/
def Resembling (alike : Part → σ → σ → Prop) (s : σ) (e : Editor σ κ) : Prop :=
  Resembles alike s e.host

/-- Wherever the host resembles the given state, the action gives this result, and only the host is
at work. -/
def Gives (alike : Part → σ → σ → Prop) (s : σ) {α : Type} (a : Action (Editor σ κ) α) (x : α) :
    Prop :=
  ∀ e, Resembles alike s e.host → ∃ e', a e = (.ok x, e') ∧ HostOnly (Resembles alike s) e e'

variable {alike : Part → σ → σ → Prop} {s : σ} {α β γ : Type} {h : Host σ κ}
  {c : ControllerSettings} {e e' : Editor σ κ} {d : Nat} {doc doc' : Document κ} {l : String}
  {t : Text}

theorem Gives.pure (x : α) : Gives alike s (pure x : Action (Editor σ κ) α) x :=
  fun e _ => ⟨e, rfl, .refl _ e⟩

/-- Actions that give something do so one after the other. -/
theorem Gives.bind {a : Action (Editor σ κ) α} {k : α → Action (Editor σ κ) β} {x : α} {y : β}
    (ha : Gives alike s a x) (hk : Gives alike s (k x) y) : Gives alike s (a >>= k) y := by
  intro e he
  obtain ⟨e₁, hr₁, hfirst⟩ := ha e he
  obtain ⟨e₂, hr₂, hsecond⟩ := hk e₁ (hfirst.host he)
  exact ⟨e₂, (Action.bind_of_ok hr₁).trans hr₂, hfirst.trans hsecond⟩

/-- What each item of a list gives is given for the whole list. -/
theorem Gives.mapM {f : γ → Action (Editor σ κ) β} {g : γ → Except Failure β}
    (hfg : ∀ x y, g x = .ok y → Gives alike s (f x) y) {xs : List γ} {ys : List β}
    (hys : xs.mapM g = .ok ys) : Gives alike s (xs.mapM f) ys := by
  induction xs generalizing ys with
  | nil =>
    obtain rfl : ([] : List β) = ys := Except.ok.inj hys
    exact Gives.pure []
  | cons x xs ih =>
    rw [List.mapM_cons] at hys ⊢
    -- neither the element nor the rest may fail, since the whole list does not
    cases hy : g x with
    | error f =>
      rw [hy] at hys
      contradiction
    | ok y =>
      cases hrest : xs.mapM g with
      | error f =>
        rw [hy, hrest] at hys
        contradiction
      | ok zs =>
        rw [hy, hrest] at hys
        obtain rfl : y :: zs = ys := Except.ok.inj hys
        exact (hfg x y hy).bind ((ih hrest).bind (Gives.pure _))

section Separate

variable (hh : h.Separate alike fun _ => True)

include hh

/-- Asking a part of the host. -/
theorem Gives.outside {a : Action σ α} {p : Part} (ha : p.Served alike (fun _ => True) a) {x : α}
    (hx : (a s).1 = .ok x) : Gives alike s (Editor.outside a : Action (Editor σ κ) α) x := by
  intro e he
  have hok : (a e.host).1 = .ok x := (ha.same (he p)).1.symm.trans hx
  refine ⟨{ e with host := (a e.host).2 }, outside_of_ok (Prod.ext hok rfl),
    ⟨rfl, rfl, ⟨[], (List.append_nil _).symm⟩, fun _ q => ?_⟩, rfl, rfl⟩
  exact (hh.equivalence q).trans (he q) (ha.rest e.host (Or.inr trivial))

/-- A set that is there is given. -/
theorem gives_lookUp {set : κ} (hset : (h.converters l s).1 = .ok set) :
    Gives alike s (lookUp h l) set := by
  intro e he
  have hok : (h.converters l e.host).1 = .ok set :=
    ((hh.converters l).same (he .converters)).1.symm.trans hset
  refine ⟨{ e with host := (h.converters l e.host).2 }, ?_,
    ⟨rfl, rfl, ⟨[], (List.append_nil _).symm⟩, fun _ q => ?_⟩, rfl, rfl⟩
  · rw [lookUp, Action.on_apply, hok]
  · exact (hh.equivalence q).trans (he q) ((hh.converters l).rest e.host (Or.inr trivial))

/-- A document is backed if it has a file with a path. -/
theorem isBacked_eq_isSome (he : Resembles alike s e.host) (doc : Document κ) :
    isBacked h e doc = (h.backing s doc).isSome := by
  -- what is asked for is the path, which is that of any state that resembles the given one
  rw [isBacked, path?, Host.backing, Document.file?]
  cases doc.handle with
  | none => rfl
  | some handle =>
    rw [Option.map_some, Option.map_some, ← hh.path handle.base (he (.file handle.base))]
    show decide _ = (Option.filter _ (some handle.base)).isSome
    rw [Option.filter_some]
    split
    · next hne => exact hne
    · next hne => simpa using hne

/-- A file is read as it is stored. -/
theorem gives_read_file {n : Nat} {chunks : List Text}
    (hchunks : (h.files.read n s).1 = .ok chunks) :
    Gives alike s ((Handle.file n).read (files h) (mapping h)) chunks := by
  refine Gives.bind (Gives.outside hh (hh.read n) hchunks)
    (Gives.mapM (g := Except.ok) (fun x y hy => ?_) ?_)
  · obtain rfl := Except.ok.inj hy
    exact Gives.pure x
  · exact (List.mapM_pure (m := Except Failure) (l := chunks) (f := id)).trans
      (congrArg Except.ok (List.map_id chunks))

/-- What is read through a mapped handle is converted. -/
theorem gives_read_mapped {n : Nat} {set : κ} {source : String} {chunks shown : List Text}
    (hset : (h.converters l s).1 = .ok set) (hchunks : (h.files.read n s).1 = .ok chunks)
    (hshown : chunks.mapM (h.converted s l .toLenient) = .ok shown) :
    Gives alike s ((Handle.mapped (.file n) ⟨set, source⟩).read (files h) (mapping h)) shown := by
  refine Gives.bind (Gives.outside hh (hh.read n) hchunks) (Gives.mapM (fun x y hy => ?_) hshown)
  rw [Host.converted, hset] at hy
  exact (Gives.pure x).bind (Gives.outside hh (hh.convert set .toLenient x) hy)

/-! ## Single operations -/

/-- A document says whether it is modified, if it can tell. -/
theorem isModified_ok (he : Resembles alike s e.host) (hdoc : e.Holds d doc)
    (hmodified : (h.checkModified d s).1 = .ok ()) :
    ∃ e', isModified h d e = (.ok doc.modified, e') ∧ HostOnly (Resembles alike s) e e' := by
  obtain ⟨e', hr, hhostOnly⟩ := Gives.outside hh (hh.checkModified d) hmodified e he
  refine ⟨e', ?_, hhostOnly⟩
  rw [isModified, Action.bind_of_ok hr, Action.bind_of_ok (document_apply (hhostOnly.holds hdoc))]
  rfl

/-- Loading replaces the text of a document by what can be read. -/
theorem load_ok (he : Resembles alike s e.host) (hdoc : e.Holds d doc)
    (hload : (h.checkLoad d s).1 = .ok ()) {handle : Handle (Binding κ)}
    (hhandle : doc.handle = some handle) {chunks : List Text}
    (hread : Gives alike s (handle.read (files h) (mapping h)) chunks) :
    ∃ e', load h d e = (.ok (), e') ∧ Shape (Resembles alike s) e d { doc with
      text := chunks.flatten, dialect := handle.dialect, modified := false } e.tracked e' := by
  obtain ⟨e₁, hr₁, hfirst⟩ := Gives.outside hh (hh.checkLoad d) hload e he
  obtain ⟨e₂, hr₂, hsecond⟩ := hread e₁ (hfirst.host he)
  refine ⟨_, ?_, ((Shape.refl hdoc).hostOnly (hfirst.trans hsecond)).put _⟩
  rw [load, Action.bind_of_ok hr₁, Action.bind_of_ok (document_apply (hfirst.holds hdoc))]
  simp only [hhandle]
  rw [Action.bind_of_ok hr₂, modify_apply ((hfirst.trans hsecond).holds hdoc), hhandle]

/-- Converting a modified document in place. -/
theorem transcode_ok (he : Resembles alike s e.host) (hdoc : e.Holds d doc)
    (hedit : (h.checkEdit d s).1 = .ok ()) (hmodified : doc.modified = true) {set : κ}
    {direction : Direction} (ht : (h.convert set direction doc.text s).1 = .ok t)
    (onError : Failure → Action (Editor σ κ) Unit) :
    ∃ e', transcode h d set direction onError e = (.ok (), e') ∧ Shape (Resembles alike s) e d
      { doc with text := t, dialect := direction.target } e.tracked e' := by
  obtain ⟨e₁, hr₁, hfirst⟩ := Gives.outside hh (hh.convert set direction doc.text) ht e he
  obtain ⟨e₂, hr₂, hsecond⟩ := Gives.outside hh (hh.checkEdit d) hedit e₁ (hfirst.host he)
  have hdoc₂ := (hfirst.trans hsecond).holds hdoc
  -- the text counts as modified before and after, whether or not it is another one
  have hset : setText h d t e₁ = (.ok (), e₂.put d { doc with text := t }) := by
    rw [setText, Action.bind_of_ok hr₂, modify_apply hdoc₂]
    split
    · next hsame => rw [← hsame]
    · rw [← hmodified]
  refine ⟨_, ?_, ((Shape.refl hdoc).hostOnly (hfirst.trans hsecond)).put _⟩
  rw [transcode_of_ok hdoc hr₁, Action.bind_of_ok hset, modify_apply (hdoc₂.put _), put_put]

/-! ## To the canonical dialect -/

omit hh in
/-- The file of a document whose handle is one. -/
theorem handle_of_backing {n : Nat} (hbare : IsBare doc.handle) (hn : h.backing s doc = some n) :
    doc.handle = some (.file n) := by
  rw [Host.backing, Option.filter_eq_some_iff, Document.file?, Option.map_eq_some_iff] at hn
  obtain ⟨⟨handle, hhandle, rfl⟩, -⟩ := hn
  obtain ⟨n, rfl⟩ := hbare handle hhandle
  exact hhandle

omit hh in
/-- A document that gets its old handle back has the file that it had. -/
theorem backing_eq (hhandle : doc'.handle = doc.handle.map Handle.unmapped) :
    h.backing s doc' = h.backing s doc := by
  rw [Host.backing, Host.backing, Document.file?, Document.file?, hhandle, Option.map_map]
  exact congrArg (fun f => (doc.handle.map f).filter _) (funext base_unmapped)

/-- The text of a document with its old handle is restored. -/
theorem restoreText_ok (he : Resembles alike s e.host) (hdoc : e.Holds d doc)
    (hedit : (h.checkEdit d s).1 = .ok ()) (hload : (h.checkLoad d s).1 = .ok ())
    (hreload : c.reload = true) (hbare : IsBare doc.handle)
    (ht : h.restored s l doc = .ok t) :
    ∃ e' doc', restoreText h c d l doc.modified (h.backing s doc).isSome e = (.ok (), e') ∧
      Shape (Resembles alike s) e d doc' e.tracked e' ∧
      doc'.content = (t, doc.modified, doc.handle) := by
  rw [Host.restored] at ht
  unfold restoreText
  cases hmodified : doc.modified with
  | true =>
    -- a modified text is converted in place
    rw [hmodified, if_pos rfl] at ht
    obtain ⟨set, hset, ht⟩ := Host.exists_of_converted ht
    obtain ⟨e₁, hr₁, hfirst⟩ := Gives.outside hh (hh.converters l) hset e he
    obtain ⟨e₂, hr₂, hshape⟩ := transcode_ok hh (hfirst.host he) (hfirst.holds hdoc) hedit hmodified
      ht fun _ => Pure.pure ()
    rw [hfirst.tracked] at hshape
    exact ⟨e₂, { doc with text := t, dialect := .canonical }, (Action.bind_of_ok hr₁).trans hr₂,
      ((Shape.refl hdoc).hostOnly hfirst).trans hshape, by rw [Document.content, hmodified]⟩
  | false =>
    rw [hmodified, if_neg Bool.false_ne_true] at ht
    -- any other text is loaded, if the document has a file
    cases hn : h.backing s doc with
    | none =>
      rw [hn] at ht
      obtain rfl := Except.ok.inj ht
      exact ⟨e, doc, rfl, Shape.refl hdoc, by rw [Document.content, hmodified]⟩
    | some n =>
      have hhandle := handle_of_backing hbare hn
      rw [hn, Option.elim_some] at ht
      obtain ⟨chunks, hchunks, rfl⟩ := Host.exists_of_stored ht
      obtain ⟨e', hr, hshape⟩ := load_ok hh he hdoc hload hhandle (gives_read_file hh hchunks)
      refine ⟨e', _, ?_, hshape, rfl⟩
      simpa [hreload] using hr

/-- A lenient document that is turned canonical has its handle back, and its text is restored. -/
theorem content?_disable (he : Resembles alike s e.host) (hdoc : e.Holds d doc)
    (htracked : e.tracked.lookup d = some l) (hmodified : (h.checkModified d s).1 = .ok ())
    (hedit : (h.checkEdit d s).1 = .ok ()) (hload : (h.checkLoad d s).1 = .ok ())
    (hreload : c.reload = true) (hbare : IsBare (doc.handle.map Handle.unmapped))
    (ht : h.restored s l doc = .ok t) :
    (disable h c d e).2.content? d = some (t, doc.modified, doc.handle.map Handle.unmapped) := by
  have hshape₁ := (Shape.refl (I := Resembles alike s) hdoc).track
    (e.tracked.filter fun t => t.1 ≠ d)
  have hdoc₁ := hshape₁.holds hdoc
  obtain ⟨e₂, hr₂, hsecond⟩ := isModified_ok hh (hshape₁.host he) hdoc₁ hmodified
  obtain ⟨e₃, he₃⟩ : ∃ e₃, e₃ = e₂.put d { doc with handle := doc.handle.map Handle.unmapped } :=
    ⟨_, rfl⟩
  have hshape₃ : Shape (Resembles alike s) e d
      { doc with handle := doc.handle.map Handle.unmapped }
      (e.tracked.filter fun t => t.1 ≠ d) e₃ := he₃ ▸ (hshape₁.hostOnly hsecond).put _
  -- the old handle is given back before the text is restored, and stands for the same file
  have hbacking : h.backing s { doc with handle := doc.handle.map Handle.unmapped }
      = h.backing s doc := backing_eq rfl
  have hrestored :
      h.restored s l { doc with handle := doc.handle.map Handle.unmapped } = .ok t := by
    rw [Host.restored, hbacking]
    exact ht
  obtain ⟨e₄, doc₄, hr₄, hshape₄, hcontent⟩ := restoreText_ok hh (hshape₃.host he)
    (hshape₃.holds hdoc) hedit hload hreload hbare hrestored
  rw [hbacking, ← isBacked_eq_isSome hh (hshape₃.host he)] at hr₄
  rw [disable_of_restored hdoc htracked hr₂ (hsecond.holds hdoc₁) he₃ hr₄,
    content?_of_holds (hshape₄.holds (hshape₃.holds hdoc)), hcontent]

/-! ## To the lenient dialect -/

/-- A document is shown with a new handle; nothing fails before. -/
theorem turnLenient_shows (he : Resembles alike s e.host) (hdoc : e.Holds d doc) {set : κ}
    (hset : (h.converters l s).1 = .ok set) (hmodified : (h.checkModified d s).1 = .ok ())
    (previous : Option Grammar) :
    ∃ e' source, turnLenient h c d previous l e = showText h c d l set source doc.handle
        (h.backing s doc).isSome doc.modified previous.isSome e' ∧
      Shape (Resembles alike s) e d { doc with
        handle := if (h.backing s doc).isSome then doc.handle.map (.mapped · ⟨set, source⟩)
          else doc.handle } e.tracked e' := by
  obtain ⟨e₁, hr₁, hfirst⟩ := gives_lookUp hh hset e he
  obtain ⟨e₂, hr₂, hsecond⟩ := isModified_ok hh (hfirst.host he) (hfirst.holds hdoc) hmodified
  -- the look-up and the question whether the document is modified leave the document alone
  have hshape₂ := (Shape.refl hdoc).hostOnly (hfirst.trans hsecond)
  rw [turnLenient_of_sure hdoc hr₁ hr₂ (hshape₂.holds hdoc),
    isBacked_eq_isSome hh (hfirst.host he)]
  exact ⟨_, sourceOf h e d doc, rfl, hshape₂.put _⟩

omit hh in
/-- Showing a document that is opened as lenient is to load it, if it has to be loaded. Whatever
fails then is not passed on. -/
theorem showText_opening (set : κ) (source : String) (old : Option (Handle (Binding κ)))
    (backed modified : Bool) :
    ∃ r e', showText h c d l set source old backed modified false e = (.ok r, e') := by
  rcases hr : loadWhen h d (backed && !modified && c.reload)
    { e with tracked := e.tracked ++ [(d, l)] } with ⟨f | ⟨⟩, e₁⟩
  · exact ⟨some f, _, showText_of_unloaded hr⟩
  · exact ⟨none, e₁, showText_of_loaded hr⟩

/-- A first look at a document does not fail as long as there are converters. -/
theorem firstLook_ok (he : Resembles alike s e.host) (hdoc : e.Holds d doc)
    (hset : ∀ l, c.languageOf doc.grammar = some l → ∃ set, (h.converters l s).1 = .ok set)
    (hmodified : (h.checkModified d s).1 = .ok ()) :
    ∃ r e', firstLook h c d doc.grammar e = (.ok r, e') := by
  rw [firstLook]
  cases hl : c.languageOf doc.grammar with
  | none => exact ⟨none, e, rfl⟩
  | some l =>
    obtain ⟨set, hset⟩ := hset l hl
    -- nothing fails before the document is shown, and a failure to show it is an outcome
    obtain ⟨e₁, source, hr, -⟩ := turnLenient_shows (c := c) hh he hdoc hset hmodified none
    obtain ⟨r, e₂, hr₂⟩ := showText_opening (h := h) (c := c) (e := e₁) (d := d) (l := l) set
      source doc.handle (h.backing s doc).isSome doc.modified
    exact ⟨r, e₂, hr.trans hr₂⟩

/-- A modified text is converted in place, unless it is taken to be lenient already. -/
theorem showText_modified (he : Resembles alike s e.host) (hdoc : e.Holds d doc)
    (hmodified : doc.modified = true) {set : κ} (hset : (h.converters l s).1 = .ok set)
    {convert : Bool} (hedit : convert = true → (h.checkEdit d s).1 = .ok ())
    (ht : (if convert then h.converted s l .toLenient doc.text else .ok doc.text) = .ok t)
    (source : String) (old : Option (Handle (Binding κ))) (backed : Bool) :
    ∃ e' doc', showText h c d l set source old backed true convert e = (.ok none, e') ∧
      Shape (Resembles alike s) e d doc' (e.tracked ++ [(d, l)]) e' ∧ doc.Akin doc' ∧
      doc'.text = t := by
  obtain ⟨e₁, doc₁, hconverted, hshape, hakin, htext⟩ : ∃ e₁ doc₁,
      convertWhen h d set source (true && convert) e = (.ok (), e₁) ∧
      Shape (Resembles alike s) e d doc₁ e.tracked e₁ ∧ doc.Akin doc₁ ∧ doc₁.text = t := by
    -- the text is converted only if it is not taken to be lenient already
    cases convert with
    | false => exact ⟨e, doc, rfl, Shape.refl hdoc, .refl doc, Except.ok.inj ht⟩
    | true =>
      rw [if_pos rfl, Host.converted, hset] at ht
      obtain ⟨e₁, hr₁, hshape⟩ := transcode_ok hh he hdoc (hedit rfl) hmodified ht
        (report Notification.toLenientCategory source)
      exact ⟨e₁, _, hr₁, hshape, ⟨rfl, rfl, rfl, rfl⟩, rfl⟩
  -- a modified text is never loaded
  have hnone : loadWhen h d (backed && !true && c.reload)
      { e₁ with tracked := e₁.tracked ++ [(d, l)] }
        = (.ok (), { e₁ with tracked := e₁.tracked ++ [(d, l)] }) := by
    rw [Bool.not_true, Bool.and_false, Bool.false_and]
    rfl
  exact ⟨_, doc₁, (showText_of_converted hconverted).trans (showText_of_loaded hnone),
    hshape.count l, hakin, htext⟩

/-- Any other text is loaded anew, if the document has a file and this is wanted. -/
theorem showText_unmodified (he : Resembles alike s e.host) (hdoc : e.Holds d doc)
    (hload : (h.checkLoad d s).1 = .ok ()) (backed : Bool)
    (hkept : (backed && c.reload) = false → doc.text = t)
    (hread : (backed && c.reload) = true → ∃ handle chunks, doc.handle = some handle ∧
      Gives alike s (handle.read (files h) (mapping h)) chunks ∧ chunks.flatten = t)
    (set : κ) (source : String) (old : Option (Handle (Binding κ))) (convert : Bool) :
    ∃ e' doc', showText h c d l set source old backed false convert e = (.ok none, e') ∧
      Shape (Resembles alike s) e d doc' (e.tracked ++ [(d, l)]) e' ∧ doc.Akin doc' ∧
      doc'.text = t := by
  have hconverted : convertWhen h d set source (false && convert) e = (.ok (), e) := rfl
  rw [showText_of_converted hconverted]
  have hcount := (Shape.refl (I := Resembles alike s) hdoc).count l
  have hif : (backed && !false && c.reload) = (backed && c.reload) := by
    rw [Bool.not_false, Bool.and_true]
  -- without a file, or if it is not wanted, nothing is loaded
  cases hreload : (backed && c.reload) with
  | false =>
    refine ⟨_, doc, showText_of_loaded ?_, hcount, .refl doc, hkept hreload⟩
    rw [hif, hreload]
    rfl
  | true =>
    obtain ⟨handle, chunks, hhandle, hgives, rfl⟩ := hread hreload
    obtain ⟨e₂, hr₂, hshape₂⟩ :=
      load_ok hh (hcount.host he) (hcount.holds hdoc) hload hhandle hgives
    refine ⟨e₂, _, showText_of_loaded ?_, hcount.trans hshape₂, ⟨rfl, rfl, rfl, rfl⟩, rfl⟩
    rw [hif, hreload]
    exact hr₂

/-- A document whose text can be converted or loaded, whichever is called for, is turned lenient. -/
theorem turnLenient_turned (he : Resembles alike s e.host) (hdoc : e.Holds d doc) {set : κ}
    (hset : (h.converters l s).1 = .ok set) (hmodified : (h.checkModified d s).1 = .ok ())
    (hload : (h.checkLoad d s).1 = .ok ()) (hbare : IsBare doc.handle) {previous : Option Grammar}
    (hedit : previous.isSome = true → (h.checkEdit d s).1 = .ok ())
    (ht : h.turned s c.reload previous.isSome l doc = .ok t) :
    ∃ e' doc', turnLenient h c d previous l e = (.ok none, e') ∧
      Shape (Resembles alike s) e d doc' (e.tracked ++ [(d, l)]) e' ∧ doc.Akin doc' ∧
      doc'.text = t := by
  obtain ⟨e₁, source, hr, hshape⟩ := turnLenient_shows (c := c) hh he hdoc hset hmodified previous
  have hdoc₁ := hshape.holds hdoc
  rw [Host.turned] at ht
  cases hmod : doc.modified with
  | true =>
    rw [hmod, if_pos rfl] at ht
    obtain ⟨e₂, doc₂, hr₂, hshape₂, hakin, htext⟩ := showText_modified (c := c) hh (hshape.host he)
      hdoc₁ hmod hset hedit ht source doc.handle (h.backing s doc).isSome
    rw [hshape.tracked] at hshape₂
    rw [hmod] at hr
    exact ⟨e₂, doc₂, hr.trans hr₂, hshape.trans hshape₂, hakin.of_handle, htext⟩
  | false =>
    rw [hmod, if_neg Bool.false_ne_true] at ht
    have hkept (hfalse : ((h.backing s doc).isSome && c.reload) = false) : doc.text = t := by
      cases hreload : c.reload with
      | false =>
        rw [hreload, if_neg Bool.false_ne_true] at ht
        exact Except.ok.inj ht
      | true =>
        have hnone : h.backing s doc = none := by simpa [hreload] using hfalse
        rw [hreload, if_pos rfl, hnone] at ht
        exact Except.ok.inj ht
    obtain ⟨e₂, doc₂, hr₂, hshape₂, hakin, htext⟩ := showText_unmodified (c := c) (l := l) hh
      (hshape.host he) hdoc₁ hload (h.backing s doc).isSome hkept (fun hread => by
        -- the file is read through the new handle
        obtain ⟨hsome, hreload⟩ := Bool.and_eq_true_iff.mp hread
        obtain ⟨n, hn⟩ := Option.isSome_iff_exists.mp hsome
        rw [hreload, if_pos rfl, hn, Option.elim_some] at ht
        obtain ⟨chunks, shown, hchunks, hconverted, hflatten⟩ := Host.exists_of_shown ht
        refine ⟨.mapped (.file n) ⟨set, source⟩, shown, ?_,
          gives_read_mapped hh hset hchunks hconverted, hflatten⟩
        rw [hsome, if_pos rfl, handle_of_backing hbare hn, Option.map_some])
      set source doc.handle previous.isSome
    rw [hshape.tracked] at hshape₂
    rw [hmod] at hr
    exact ⟨e₂, doc₂, hr.trans hr₂, hshape.trans hshape₂, hakin.of_handle, htext⟩

/-- If its file can be shown, a document of a lenient grammar counts as lenient after the first
look. -/
theorem firstLook_shown (he : Resembles alike s e.host) (hdoc : e.Holds d doc)
    (hl : c.languageOf doc.grammar = some l) {set : κ} (hset : (h.converters l s).1 = .ok set)
    (hmodified : (h.checkModified d s).1 = .ok ()) (hload : (h.checkLoad d s).1 = .ok ())
    (hreload : c.reload = true) (hbare : IsBare doc.handle) (ht : h.opening s l doc = .ok t) :
    ∃ e' doc', firstLook h c d doc.grammar e = (.ok none, e') ∧
      Shape (Resembles alike s) e d doc' (e.tracked ++ [(d, l)]) e' ∧ doc.Akin doc' ∧
      doc'.text = t := by
  rw [firstLook, hl]
  refine turnLenient_turned hh he hdoc hset hmodified hload hbare (by simp) ?_
  rw [hreload]
  exact ht

/-! ## What asking leaves as it is -/

/-- Asking wears nothing off, whether or not it fails. -/
theorem resembling_outside {a : Action σ α} {p : Part} (ha : p.Served alike (fun _ => True) a) :
    Preserves (Resembling alike s) (Editor.outside a : Action (Editor σ κ) α) := by
  intro e he q
  have hrest := (hh.equivalence q).trans (he q) (ha.rest e.host (Or.inr trivial))
  rcases hr : a e.host with ⟨f | x, s'⟩
  · rw [outside_of_error hr]
    rwa [hr] at hrest
  · rw [outside_of_ok hr]
    rwa [hr] at hrest

omit hh in
theorem resembling_document (d : Nat) :
    Preserves (Resembling alike s) (document d : Action (Editor σ κ) (Document κ)) := by
  intro e he
  cases hdoc : e.documents[d]? with
  | none =>
    rw [document_of_none hdoc]
    exact he
  | some doc =>
    rw [document_apply hdoc]
    exact he

omit hh in
theorem resembling_setHandle (d : Nat) (handle : Option (Handle (Binding κ))) :
    Preserves (Resembling alike s) (setHandle d handle) := by
  intro e he
  exact he

omit hh in
theorem resembling_report (category source : String) (f : Failure) :
    Preserves (Resembling alike s) (report category source f : Action (Editor σ κ) Unit) := by
  intro e he
  exact he

theorem resembling_incoming (handle : Handle (Binding κ)) (t : Text) :
    Preserves (Resembling alike s) (handle.incoming (mapping h) t) := by
  induction handle with
  | file n => exact Preserves.pure t
  | mapped inner b ih =>
    exact ih.bind fun t' => resembling_outside hh (hh.convert b.set .toLenient t')
  | forwarding inner ih => exact ih

theorem resembling_load (d : Nat) : Preserves (Resembling alike s) (load h d) := by
  refine (resembling_outside hh (hh.checkLoad d)).bind fun _ =>
    (resembling_document d).bind fun doc => ?_
  split
  · exact Preserves.pure _
  next handle _ =>
    have hread : Preserves (Resembling alike s) (handle.read (files h) (mapping h)) :=
      (resembling_outside hh (hh.read handle.base)).bind
        (Preserves.mapM (resembling_incoming hh handle))
    exact hread.bind fun chunks => fun _ he => he

/-- Showing a document that is opened as lenient asks for its file at most. -/
theorem resembling_showText (set : κ) (source : String) (old : Option (Handle (Binding κ)))
    (backed modified : Bool) :
    Preserves (Resembling alike s) (showText h c d l set source old backed modified false) := by
  rw [showText, Bool.and_false]
  refine (Preserves.pure ()).attempt.bind fun r => ?_
  cases r with
  | error f => exact (resembling_setHandle d old).bind fun _ => Preserves.pure _
  | ok _ =>
    -- nothing is converted, so that only the file may be asked for
    have htrack : Preserves (Resembling alike s) (track d l : Action (Editor σ κ) Unit) :=
      fun _ he => he
    have hreload : Preserves (Resembling alike s)
        (if backed && !modified && c.reload then load h d else pure ()) := by
      split
      · exact resembling_load hh d
      · exact Preserves.pure _
    refine htrack.bind fun _ => hreload.attempt.bind fun r => ?_
    cases r with
    | error f =>
      have huntrack : Preserves (Resembling alike s) (untrack d : Action (Editor σ κ) Unit) :=
        fun _ he => he
      exact (resembling_report _ source f).bind fun _ => huntrack.bind fun _ =>
        (resembling_setHandle d old).bind fun _ => Preserves.pure _
    | ok _ => exact Preserves.pure _

/-- A first look at a document asks for converters and for its file. -/
theorem resembling_firstLook (d : Nat) (g : Grammar) :
    Preserves (Resembling alike s) (firstLook h c d g) := by
  rw [firstLook]
  split
  · exact Preserves.pure _
  next l _ =>
  -- the converters are the only thing of the host that is asked for besides the file
  have hlookUp : Preserves (Resembling alike s) (lookUp h l) := fun e he q =>
    (hh.equivalence q).trans (he q) ((hh.converters l).rest e.host (Or.inr trivial))
  have hmodified : Preserves (Resembling alike s) (isModified h d) :=
    (resembling_outside hh (hh.checkModified d)).bind fun _ =>
      (resembling_document d).bind fun doc => Preserves.pure doc.modified
  refine (resembling_document d).bind fun doc => (Preserves.ask _).bind fun source =>
    hlookUp.attempt.bind fun r => ?_
  cases r with
  | error f =>
    show Preserves _ (ite _ _ _)
    split
    · exact (resembling_report _ source f).bind fun _ => Preserves.pure _
    · exact Preserves.throw f
  | ok set =>
    refine (Preserves.ask _).bind fun backed => hmodified.bind fun modified => ?_
    have hshow := resembling_showText (s := s) (c := c) (d := d) (l := l) hh set source doc.handle
      backed modified
    show Preserves _ (ite _ _ _)
    split
    · exact (resembling_setHandle d _).bind fun _ => hshow
    · exact hshow

/-- When documents are turned canonical, nothing wears off. -/
theorem resembling_disable (d : Nat) : Preserves (Resembling alike s) (disable h c d) :=
  fun _ he q =>
    (hh.equivalence q).trans (he q) ((beside_disable hh c).host q (Or.inr trivial))

theorem resembling_deactivate : Preserves (Resembling alike s) (deactivate h c false) := by
  intro e he
  obtain ⟨e₁, hgiven, hu⟩ := forM_unobserve (List.range e.observations.length) e
  -- giving up the observations has not touched the host
  have he₁ : Resembling alike s e₁ := by
    rw [Resembling, hu.host]
    exact he
  have hall : Preserves (Resembling alike s) (disableAll h c e₁.tracked) :=
    Preserves.forM fun t _ => resembling_disable hh t.1
  rw [deactivate_apply hgiven]
  exact hall e₁ he₁

/-! ## Observing -/

/-- The controller begins to follow the document, and nothing wears off. -/
theorem observe_ok (he : Resembles alike s e.host) (hdoc : e.Holds d doc)
    (hfree : e.tracked.lookup d = none)
    (hset : ∀ l, c.languageOf doc.grammar = some l → ∃ set, (h.converters l s).1 = .ok set)
    (hmodified : (h.checkModified d s).1 = .ok ()) :
    ∃ n e', observe h c d e = (.ok n, e') ∧ Resembles alike s e'.host := by
  have henter : (entered e d).Holds d doc := hdoc
  obtain ⟨r, e₂, hr⟩ := firstLook_ok (e := entered e d) hh he henter hset hmodified
  have he₂ := resembling_firstLook (c := c) hh d doc.grammar (entered e d) he
  rw [hr] at he₂
  -- whichever way the first look ends, the document is still there
  obtain ⟨doc₂, hdoc₂⟩ : ∃ doc₂, e₂.Holds d doc₂ := by
    obtain ⟨f, e', hr', -⟩ | ⟨r', e', hr', hhostOnly⟩ | ⟨l, e', doc', -, hr', hshape, -⟩ :=
      firstLook_ends (c := c) h.respects_true henter trivial hfree
    · rw [hr'] at hr
      exact absurd (Prod.mk.inj hr).1 nofun
    · obtain rfl := (Prod.mk.inj (hr'.symm.trans hr)).2
      exact ⟨doc, hhostOnly.holds henter⟩
    · obtain rfl := (Prod.mk.inj (hr'.symm.trans hr)).2
      exact ⟨doc', hshape.holds henter⟩
  exact ⟨_, _, (observe_of_firstLook hdoc hfree hr).2 r doc₂ rfl hdoc₂, he₂⟩

/-- If its file can be shown, a document of a lenient grammar counts as lenient from then on. -/
theorem observe_shown (he : Resembles alike s e.host) (hdoc : e.Holds d doc)
    (hfree : e.tracked.lookup d = none) (hl : c.languageOf doc.grammar = some l) {set : κ}
    (hset : (h.converters l s).1 = .ok set) (hmodified : (h.checkModified d s).1 = .ok ())
    (hload : (h.checkLoad d s).1 = .ok ()) (hreload : c.reload = true) (hbare : IsBare doc.handle)
    (ht : h.opening s l doc = .ok t) :
    ∃ doc', (observe h c d e).2.Holds d doc' ∧ (observe h c d e).2.tracked.lookup d = some l ∧
      doc'.closed = doc.closed ∧ doc'.text = t := by
  have henter : (entered e d).Holds d doc := hdoc
  obtain ⟨e₂, doc₂, hr, hshape, hakin, htext⟩ := firstLook_shown (e := entered e d) hh he henter hl
    hset hmodified hload hreload hbare ht
  have hdoc₂ := hshape.holds henter
  rw [(observe_of_firstLook hdoc hfree hr).2 none doc₂ rfl hdoc₂]
  -- that the grammar is noted and the document followed leaves text and language alone
  have hput : (e₂.noted e.observations.length doc₂.grammar).Holds d doc₂ := hdoc₂
  refine ⟨followed doc₂ e.observations.length, hput.put _, ?_, hakin.closed, htext⟩
  show e₂.tracked.lookup d = some l
  rw [hshape.tracked]
  exact lookup_append_self hfree l

end Separate

end Editor

end Dialects

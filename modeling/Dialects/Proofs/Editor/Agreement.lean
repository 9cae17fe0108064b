import Dialects.Proofs.Editor.Run
import Dialects.Proofs.Storage.Memory

/-!
# Grammar and dialect

A document should count as lenient in a language exactly if its grammar stands for that language
(`Agrees`). A change of grammar keeps this, whatever is refused, except in one case: the document is
to be shown in another language, this is refused, and so is showing it again in the language that it
was shown in before (`Stuck`). It then has the grammar of that language without being lenient, since
giving it back the grammar that it has is no change that anyone hears of.

`setGrammar_followed` follows a change of grammar through the nested ones, also if the converters
fail in a way that is not expected (`Raises`), and `agrees_run_iff` says what it means for runs.
-/

namespace Dialects.Editor

open Dialects.Action

variable {σ κ : Type} {I : σ → Prop} {h : Host σ κ} {c : ControllerSettings} {e e' : Editor σ κ}
  {d o : Nat} {doc doc' : Document κ} {before after : List Observer} {p g : Grammar}
  {t : Option String}

/-! ## What is claimed -/

/-- The document counts as lenient in the language of its grammar, if any, and then has a mapped
handle if it has a file. -/
def Agrees (h : Host σ κ) (c : ControllerSettings) (d : Nat) (e : Editor σ κ) : Prop :=
  ∀ doc, e.Holds d doc → e.tracked.lookup d = c.languageOf doc.grammar ∧
    ((e.tracked.lookup d).isSome → isBacked h e doc → IsMapped doc)

/-- Tells an observer of a new grammar, unless it is the controller. -/
def tell (g : Grammar) : Observer → Action (Editor σ κ) Unit
  | .controller _ => pure ()
  | .listener _ name => mark name (.words [g.scope])

/-- What happens when a grammar is set before the controller hears of it. -/
def announce (d : Nat) (g : Grammar) : Action (Editor σ κ) Unit := do
  let doc ← document d
  modify d fun doc => { doc with grammar := g }
  (doc.grammarObservers.callbacks.takeWhile fun
    | .controller _ => false
    | .listener .. => true).forM (tell g)

/-- The document gets a grammar and is to be shown in a language. -/
def tryOut (h : Host σ κ) (c : ControllerSettings) (d : Nat) (previous g : Grammar) (l : String) :
    Action (Editor σ κ) (Option Failure) := do
  announce d g
  let _ ← disable h c d
  turnLenient h c d (some previous) l

/-- The action comes to an end and gives the failure for which it has refused to do its work. -/
def Refused (a : Action (Editor σ κ) (Option Failure)) (e : Editor σ κ) : Prop :=
  ∃ f, (a e).1 = .ok (some f)

/-- An action that gives an answer has refused just when the answer names a failure. -/
theorem refused_iff {a : Action (Editor σ κ) (Option Failure)} {r : Option Failure}
    (hr : a e = (.ok r, e')) : Refused a e ↔ r.isSome = true := by
  rw [Refused, hr]
  cases r with
  | none => exact iff_of_false (by rintro ⟨f, heq⟩; cases heq) Bool.false_ne_true
  | some f => exact iff_of_true ⟨f, rfl⟩ rfl

/-- Whoever is asked for converters while the grammar `g` is set, with the grammar `p` to go back
to, fails in a way that is not expected: as the new language is tried out, or as the old one is
tried again after the new one has been refused. -/
def Raises (h : Host σ κ) (c : ControllerSettings) (d : Nat) (p g : Grammar) (e : Editor σ κ) :
    Prop :=
  ∃ l, c.languageOf g = some l ∧ e.tracked.lookup d ≠ some l ∧
    (Escapes h l (disable h c d (announce d g e).2).2.host ∨
      Refused (tryOut h c d p g l) e ∧ g ≠ p ∧
        ∃ l', c.languageOf p = some l' ∧ Escapes h l' (tryOut h c d p g l e).2.host)

/-- The document is to be shown in a language for which it is not shown yet, and this is refused. -/
def Refuses (h : Host σ κ) (c : ControllerSettings) (d : Nat) (p g : Grammar) (e : Editor σ κ) :
    Prop :=
  ∃ l, c.languageOf g = some l ∧ e.tracked.lookup d ≠ some l ∧ Refused (tryOut h c d p g l) e

/-- The document is to be shown in another language. This is refused, and so is showing it in the
language of the grammar `p`, which it gets back. -/
def Lost (h : Host σ κ) (c : ControllerSettings) (d : Nat) (p g : Grammar) (e : Editor σ κ) : Prop :=
  ∃ l l', c.languageOf p = some l ∧ c.languageOf g = some l' ∧ e.tracked.lookup d ≠ some l' ∧
    Refused (tryOut h c d p g l') e ∧ Refused (tryOut h c d p p l) (tryOut h c d p g l' e).2

/-- A document that is to be canonical is not lost. -/
theorem not_lost_of_none (hl : c.languageOf g = none) : ¬ Lost h c d p g e := by
  rintro ⟨-, l, -, hsome, -⟩
  rw [hl] at hsome
  contradiction

/-- A document that is to be shown in a language is lost if this and the way back are refused. -/
theorem lost_iff {l : String} (hl : c.languageOf g = some l) :
    Lost h c d p g e ↔ e.tracked.lookup d ≠ some l ∧ Refused (tryOut h c d p g l) e ∧
      ∃ l', c.languageOf p = some l' ∧
        Refused (tryOut h c d p p l') (tryOut h c d p g l e).2 := by
  constructor
  · -- the new language is the one that the grammar is of, and thus known
    rintro ⟨l', l'', hold, hsome, hother, hrefused, hagain⟩
    obtain rfl := Option.some.inj (hl.symm.trans hsome)
    exact ⟨hother, hrefused, l', hold, hagain⟩
  · rintro ⟨hother, hrefused, l', hold, hagain⟩
    exact ⟨l', l, hold, hl, hother, hrefused, hagain⟩

/-- The document is to be shown in another language. This is refused, and so is showing it again in
the language of its old grammar. -/
def Stuck (h : Host σ κ) (c : ControllerSettings) (d : Nat) (e : Editor σ κ) (g : Grammar) : Prop :=
  ∃ doc l l', e.Holds d doc ∧ doc.grammar ≠ g ∧
    c.languageOf doc.grammar = some l ∧ c.languageOf g = some l' ∧ e.tracked.lookup d ≠ some l' ∧
    Refused (tryOut h c d doc.grammar g l') e ∧
    Refused (tryOut h c d doc.grammar doc.grammar l) (tryOut h c d doc.grammar g l' e).2

/-! ## Documents that the controller follows -/

/-- The document is followed by the controller through one observation, which has taken note of the
grammar `p`; it counts as lenient in the language `t`, if any. -/
structure Followed (h : Host σ κ) (I : σ → Prop) (d o : Nat) (before after : List Observer)
    (p : Grammar) (t : Option String) (doc : Document κ) (e : Editor σ κ) : Prop where
  holds : e.Holds d doc
  followers : doc.grammarObservers.callbacks = before ++ .controller o :: after
  known : e.observations[o]? = some ⟨d, some p⟩
  host : I e.host
  tracked : e.tracked.lookup d = t
  mapped : t.isSome → isBacked h e doc → IsMapped doc

/-- All of them are listeners. -/
def Listeners (xs : List Observer) : Prop := ∀ n, .controller n ∉ xs

/-- The editor after some observers have been told of a grammar. -/
def told (g : Grammar) (xs : List Observer) (e : Editor σ κ) : Editor σ κ :=
  { e with
    log := e.log ++ xs.filterMap fun
      | .controller _ => none
      | .listener _ name => some (name, .words [g.scope]) }

/-- The listeners are told one after the other. -/
theorem forM_tell (g : Grammar) {k : Observer → Action (Editor σ κ) PUnit}
    (hk : ∀ id name, k (.listener id name) = mark name (.words [g.scope])) {xs : List Observer}
    (hxs : Listeners xs) (rest : List Observer) (e : Editor σ κ) :
    (xs ++ rest).forM k e = rest.forM k (told g xs e) := by
  induction xs generalizing e with
  | nil =>
    have hnothing : told g [] e = e := by simp [told]
    rw [hnothing]
    rfl
  | cons x xs ih =>
    cases x with
    | controller n => exact absurd List.mem_cons_self (hxs n)
    | listener id name =>
      have hlisteners : Listeners xs := fun n hn => hxs n (List.mem_cons_of_mem _ hn)
      show (k (.listener id name) >>= fun _ => (xs ++ rest).forM k) e = _
      rw [Action.bind_apply, hk, mark, Action.change_apply]
      simp only [ih hlisteners]
      simp [told]

/-- If there are only listeners, telling them is all that happens. -/
theorem forM_tell_all (g : Grammar) {k : Observer → Action (Editor σ κ) PUnit}
    (hk : ∀ id name, k (.listener id name) = mark name (.words [g.scope])) {xs : List Observer}
    (hxs : Listeners xs) (e : Editor σ κ) : xs.forM k e = (.ok (), told g xs e) := by
  have hall := forM_tell g hk hxs [] e
  rw [List.append_nil] at hall
  exact hall

/-- Up to the controller there are the listeners in front of it. -/
theorem takeWhile_listeners {xs : List Observer} (hxs : Listeners xs) (n : Nat)
    (rest : List Observer) :
    (xs ++ .controller n :: rest).takeWhile (fun
      | .controller _ => false
      | .listener .. => true) = xs := by
  rw [List.takeWhile_append_of_pos]
  · simp
  · intro x hx
    cases x with
    | controller m => exact absurd hx (hxs m)
    | listener id name => rfl

/-! ## A change of grammar that the controller hears of -/

/-- The document is followed by the controller through one observation, which has taken note of the
grammar `known`, if any. -/
structure Watched (d o : Nat) (before after : List Observer) (known : Option Grammar)
    (doc : Document κ) (e : Editor σ κ) : Prop where
  holds : e.Holds d doc
  followers : doc.grammarObservers.callbacks = before ++ .controller o :: after
  known : e.observations[o]? = some ⟨d, known⟩

/-- A step of the document that keeps its observers leaves it watched. -/
theorem Watched.of_shape {known : Option Grammar} {e₁ : Editor σ κ} {tracked : List (Nat × String)}
    (hw : Watched d o before after known doc e) (hshape : Shape I e d doc' tracked e₁)
    (hakin : doc.Akin doc') : Watched d o before after known doc' e₁ := by
  refine ⟨hshape.holds hw.holds, ?_, ?_⟩
  · rw [hakin.grammarObservers]
    exact hw.followers
  · rw [hshape.observations]
    exact hw.known

/-- What only the host does leaves a document watched. -/
theorem Watched.hostOnly {known : Option Grammar} {e₁ : Editor σ κ}
    (hw : Watched d o before after known doc e)
    (hhostOnly : HostOnly I e e₁) : Watched d o before after known doc e₁ :=
  hw.of_shape ((Shape.refl hw.holds).hostOnly hhostOnly) (.refl doc)

/-- The document has got a grammar of which the listeners before the controller know. -/
def announced (d : Nat) (g : Grammar) (before : List Observer) (doc : Document κ)
    (e : Editor σ κ) : Editor σ κ :=
  told g before (e.put d { doc with grammar := g })

/-- A new grammar leaves a document watched. -/
theorem Watched.announced {known : Option Grammar} (hw : Watched d o before after known doc e)
    (g : Grammar) : Watched d o before after known { doc with grammar := g }
      (announced d g before doc e) :=
  ⟨hw.holds.put _, hw.followers, hw.known⟩

/-- Takes note of the grammar that a document has. -/
def note (observation d : Nat) : Action (Editor σ κ) Unit := do
  let now := (← document d).grammar
  .change fun e =>
    { e with
      observations := e.observations.modify observation fun o => { o with previous := some now } }

/-- An observation takes note of the grammar of its document. -/
theorem note_apply (hdoc : e.Holds d doc) : note o d e = (.ok (), e.noted o doc.grammar) := by
  rw [note, Action.bind_apply, document_apply hdoc]
  rfl

/-- The controller handles the change, and takes note of the grammar that the document has then. -/
theorem follow_watched {known : Option Grammar} (hw : Watched d o before after known doc e)
    (revert : Nat → Grammar → Action (Editor σ κ) Unit) :
    follow h c revert o g e = (handleGrammar h c revert d g known >>= fun _ => note o d) e := by
  rw [follow, Action.bind_apply, Action.ask_apply]
  simp only [hw.known]
  rfl

/-- The listeners before the controller are told, then the controller is, and then the others
are. -/
theorem setGrammar_watched {known : Option Grammar} (hw : Watched d o before after known doc e)
    (hbefore : Listeners before) (hne : doc.grammar ≠ g) (depth : Nat) :
    setGrammar h c (depth + 1) d g e =
      (follow h c (setGrammar h c depth) o g >>= fun _ => after.forM fun
        | .controller o => follow h c (setGrammar h c depth) o g
        | .listener _ name => mark name (.words [g.scope])) (announced d g before doc e) := by
  rw [setGrammar, Action.bind_apply, document_apply hw.holds]
  simp only [if_neg hne, Action.bind_apply, modify_apply hw.holds, hw.followers]
  -- none of those in front sets a grammar, so that the controller hears of this one
  rw [forM_tell g (fun _ _ => rfl) hbefore, ← Action.bind_apply]
  rfl

section Followed

variable (hpath : ∀ n s s', I s → I s' → (h.files.path n s = "" ↔ h.files.path n s' = ""))

include hpath in
/-- Whether a document has a file depends on its handle alone. -/
theorem isBacked_eq (hhost : I e.host) (hhost' : I e'.host)
    (hhandle : doc'.handle.map Handle.base = doc.handle.map Handle.base) :
    isBacked h e' doc' = isBacked h e doc := by
  -- only the file that is at the bottom of the handle is looked at
  have hbacked (e : Editor σ κ) (doc : Document κ) : isBacked h e doc =
      ((doc.handle.map Handle.base).map fun n => decide (h.files.path n e.host ≠ "")).getD false := by
    rw [isBacked, path?]
    cases doc.handle with
    | none => rfl
    | some handle => rfl
  rw [hbacked, hbacked, hhandle]
  cases doc.handle.map Handle.base with
  | none => rfl
  | some n => exact decide_eq_decide.mpr (not_congr (hpath n _ _ hhost' hhost))

include hpath in
/-- A document has a file at one time if it has one at another. -/
theorem isBacked_same (doc : Document κ) (hhost : I e.host) (e' : Editor σ κ) (hhost' : I e'.host) :
    isBacked h e' doc = isBacked h e doc :=
  isBacked_eq hpath hhost hhost' rfl

include hpath in
/-- What only the host does leaves a document followed. -/
theorem Followed.hostOnly (hf : Followed h I d o before after p t doc e)
    (hhostOnly : HostOnly I e e') : Followed h I d o before after p t doc e' := by
  refine ⟨hhostOnly.holds hf.holds, hf.followers, ?_, hhostOnly.host hf.host, ?_, ?_⟩
  · rw [hhostOnly.observations]
    exact hf.known
  · rw [hhostOnly.tracked]
    exact hf.tracked
  · intro ht hb
    -- whether the document has a file is the same as before
    rw [isBacked_eq hpath hf.host (hhostOnly.host hf.host) rfl] at hb
    exact hf.mapped ht hb

/-- A new grammar leaves a document followed. -/
theorem Followed.grammar (hf : Followed h I d o before after p t doc e) (g : Grammar) :
    Followed h I d o before after p t { doc with grammar := g }
      (e.put d { doc with grammar := g }) :=
  ⟨hf.holds.put _, hf.followers, hf.known, hf.host, hf.tracked, hf.mapped⟩

/-- Listeners that are told leave a document followed. -/
theorem Followed.told (hf : Followed h I d o before after p t doc e) (g : Grammar)
    (xs : List Observer) : Followed h I d o before after p t doc (told g xs e) :=
  ⟨hf.holds, hf.followers, hf.known, hf.host, hf.tracked, hf.mapped⟩

/-- What an observation has noted is what it knows from then on. -/
theorem Followed.noted (hf : Followed h I d o before after p t doc e) (g : Grammar) :
    Followed h I d o before after g t doc (noted e o g) := by
  refine ⟨hf.holds, hf.followers, ?_, hf.host, hf.tracked, hf.mapped⟩
  rw [Editor.noted, List.getElem?_modify, hf.known]
  simp

/-- What is told before the controller hears of a grammar changes nothing else. -/
theorem announce_followed (hbefore : Listeners before)
    (hf : Followed h I d o before after p t doc e) (g : Grammar) :
    ∃ e₁, announce d g e = (.ok (), e₁) ∧
      e₁ = announced d g before doc e ∧
      Followed h I d o before after p t { doc with grammar := g } e₁ := by
  refine ⟨_, ?_, rfl, (hf.grammar g).told g before⟩
  rw [announce, Action.bind_apply, document_apply hf.holds]
  simp only [Action.bind_apply, modify_apply hf.holds, hf.followers, takeWhile_listeners hbefore]
  exact forM_tell_all g (fun _ _ => rfl) hbefore _

/-! ## The transitions of a followed document -/

/-- A followed document has been replaced by one with the same followers, and perhaps counts
otherwise than before. -/
theorem Followed.of_shape {tracked : List (Nat × String)} {t' : Option String}
    (hf : Followed h I d o before after p t doc e) (hshape : Shape I e d doc' tracked e')
    (hakin : doc.Akin doc') (ht : tracked.lookup d = t')
    (hmapped : t'.isSome → isBacked h e' doc' → IsMapped doc') :
    Followed h I d o before after p t' doc' e' := by
  refine ⟨hshape.holds hf.holds, ?_, ?_, hshape.host hf.host, ?_, hmapped⟩
  · rw [hakin.grammarObservers]
    exact hf.followers
  · rw [hshape.observations]
    exact hf.known
  · rw [hshape.tracked]
    exact ht

section Transitions

variable (hI : h.Respects I)

include hI hpath

variable (hmodified : ∀ s, I s → (h.checkModified d s).1 = .ok ())

include hmodified

/-- A followed document is turned canonical, whatever fails. -/
theorem Followed.disable (hf : Followed h I d o before after p t doc e) :
    ∃ outcome e' doc', disable h c d e = (.ok outcome, e') ∧
      Followed h I d o before after p none doc' e' ∧ doc'.grammar = doc.grammar := by
  cases t with
  | none => exact ⟨.success, e, doc, disable_of_free c hf.tracked, hf, rfl⟩
  | some l =>
    obtain ⟨-, f, -, -, -, s, hs, herror⟩ | ⟨e', doc', outcome, hr, hshape, hakin, -, -⟩ :=
      disable_cases hI c hf.holds hf.host
        (isBacked_same hpath doc hf.host) hf.tracked
    · rw [hmodified s hs] at herror
      cases herror
    refine ⟨outcome, e', doc', hr, ?_, hakin.grammar⟩
    exact hf.of_shape hshape hakin (lookup_filter_self d e.tracked)
      fun hnone => absurd hnone Bool.false_ne_true

/-- A followed document is turned lenient, or this is refused, or the converters escape; if it is
not turned lenient, then nothing changes. -/
theorem Followed.turnLenient (hf : Followed h I d o before after p none doc e)
    (previous : Option Grammar) (l : String) :
    (∃ f e', turnLenient h c d previous l e = (.error f, e') ∧
      Followed h I d o before after p none doc e' ∧ Escapes h l e.host) ∨
    (∃ f e', turnLenient h c d previous l e = (.ok (some f), e') ∧
      Followed h I d o before after p none doc e') ∨
    (∃ e' doc', turnLenient h c d previous l e = (.ok none, e') ∧
      Followed h I d o before after p (some l) doc' e' ∧ doc'.grammar = doc.grammar) := by
  obtain ⟨e', f, hhostOnly, hr, hescapes | ⟨s, f', hs, herror⟩⟩ | ⟨e', f, hhostOnly, hr⟩ |
      ⟨e', doc', hr, hshape, hshown⟩ :=
    turnLenient_cases hI c hf.holds hf.host
      (isBacked_same hpath doc hf.host) hf.tracked previous l
  · exact .inl ⟨f, e', hr, hf.hostOnly hpath hhostOnly, hescapes⟩
  · rw [hmodified s hs] at herror
    cases herror
  · exact .inr (.inl ⟨f, e', hr, hf.hostOnly hpath hhostOnly⟩)
  refine .inr (.inr ⟨e', doc', hr, ?_, hshown.akin.grammar⟩)
  refine hf.of_shape hshape hshown.akin (lookup_append_self hf.tracked l) fun _ hb => ?_
  cases hbacked : isBacked h e doc with
  | true =>
    obtain ⟨handle, binding, -, hhandle⟩ := hshown.mapped hbacked
    exact ⟨.mapped handle binding, hhandle, rfl⟩
  | false =>
    -- A document without a file does not get one.
    have hsame : doc'.handle.map Handle.base = doc.handle.map Handle.base := by
      rw [hshown.unbacked hbacked]
    rw [isBacked_eq hpath hf.host (hshape.host hf.host) hsame, hbacked] at hb
    contradiction

/-! ## Changes of grammar -/

omit hI hmodified hpath in
/-- A change of grammar that the controller can handle comes to an end. The observation has taken
note of the grammar that the document has then. -/
theorem setGrammar_of_handled (hbefore : Listeners before) (hafter : Listeners after) {depth : Nat}
    {e₁ e₂ : Editor σ κ} {p₂ : Grammar} {t₂ : Option String} {doc₂ : Document κ} {outcome : Outcome}
    (hf : Followed h I d o before after p t doc e) (hne : doc.grammar ≠ g)
    (hannounced : announce d g e = (.ok (), e₁))
    (hhandled : handleGrammar h c (setGrammar h c depth) d g (some p) e₁ = (.ok outcome, e₂))
    (hf₂ : Followed h I d o before after p₂ t₂ doc₂ e₂) :
    ∃ e₃, setGrammar h c (depth + 1) d g e = (.ok (), e₃) ∧
      Followed h I d o before after doc₂.grammar t₂ doc₂ e₃ := by
  obtain ⟨_, happly, rfl, hf₁⟩ := announce_followed hbefore hf g
  obtain rfl := (Prod.mk.inj (hannounced.symm.trans happly)).2
  refine ⟨told g after (e₂.noted o doc₂.grammar), ?_, (hf₂.noted doc₂.grammar).told g after⟩
  have hw : Watched d o before after (some p) doc e := ⟨hf.holds, hf.followers, hf.known⟩
  rw [setGrammar_watched hw hbefore hne, Action.bind_apply, follow_watched (hw.announced g),
    Action.bind_of_ok hhandled, note_apply hf₂.holds]
  exact forM_tell_all g (fun _ _ => rfl) hafter _

omit hI hmodified hpath in
/-- A change of grammar that the controller cannot handle ends there: nobody else hears of it, and
the observation takes note of nothing. -/
theorem setGrammar_of_broken (hbefore : Listeners before) {depth : Nat} {e₁ e₂ : Editor σ κ}
    {f : Failure} (hf : Followed h I d o before after p t doc e) (hne : doc.grammar ≠ g)
    (hannounced : announce d g e = (.ok (), e₁))
    (hhandled : handleGrammar h c (setGrammar h c depth) d g (some p) e₁ = (.error f, e₂)) :
    setGrammar h c (depth + 1) d g e = (.error f, e₂) := by
  obtain ⟨_, happly, rfl, -⟩ := announce_followed hbefore hf g
  obtain rfl := (Prod.mk.inj (hannounced.symm.trans happly)).2
  have hw : Watched d o before after (some p) doc e := ⟨hf.holds, hf.followers, hf.known⟩
  rw [setGrammar_watched hw hbefore hne, Action.bind_apply, follow_watched (hw.announced g),
    Action.bind_apply, hhandled]

omit hI hmodified hpath in
/-- Nobody hears of it if a document is given the grammar that it has. -/
theorem setGrammar_same (h : Host σ κ) (c : ControllerSettings) (hdoc : e.Holds d doc)
    (depth : Nat) : setGrammar h c (depth + 1) d doc.grammar e = (.ok (), e) := by
  rw [setGrammar, Action.bind_apply, document_apply hdoc]
  simp only [if_true]
  rfl

omit hI hmodified hpath in
/-- What has been tried out when the parts have come to an end. -/
theorem tryOut_apply {e₁ e₂ : Editor σ κ} {outcome : Outcome}
    (hannounced : announce d g e = (.ok (), e₁)) (hdisabled : disable h c d e₁ = (.ok outcome, e₂))
    (l : String) : tryOut h c d p g l e = turnLenient h c d (some p) l e₂ := by
  rw [tryOut, Action.bind_apply, hannounced]
  simp only [Action.bind_apply, hdisabled]

/-- The way back: the document gets the grammar that was noted last. It agrees with it then, unless
it is refused to show the document in the language of this grammar. -/
theorem setGrammar_back (hbefore : Listeners before) (hafter : Listeners after)
    (hf : Followed h I d o before after p none doc e) (hne : doc.grammar ≠ p) (depth : Nat) :
    (∃ f e' doc' l, setGrammar h c (depth + 2) d p e = (.error f, e') ∧
      Followed h I d o before after p none doc' e' ∧ c.languageOf p = some l ∧
      Escapes h l e.host) ∨
    (∃ e' doc' t', setGrammar h c (depth + 2) d p e = (.ok (), e') ∧
      Followed h I d o before after p t' doc' e' ∧ doc'.grammar = p ∧
      (t' = none ∨ t' = c.languageOf p) ∧
      (t' = c.languageOf p ↔
        ¬ ∃ l, c.languageOf p = some l ∧ Refused (tryOut h c d p p l) e)) := by
  obtain ⟨e₁, hannounced, htold, hf₁⟩ := announce_followed hbefore hf p
  cases hl : c.languageOf p with
  | none =>
    have hhandled : handleGrammar h c (setGrammar h c (depth + 1)) d p (some p) e₁
        = (.ok .success, e₁) := by
      rw [handleGrammar_of_none hl, disable_of_free c hf₁.tracked]
    obtain ⟨e', hr, hf'⟩ := setGrammar_of_handled hbefore hafter hf hne hannounced hhandled hf₁
    refine .inr ⟨e', _, none, hr, hf', rfl, Or.inl rfl, fun _ => ?_, fun _ => rfl⟩
    rintro ⟨l, hsome, -⟩
    contradiction
  | some l =>
    have hhandled := handleGrammar_of_free (h := h) hl hf₁.tracked (setGrammar h c (depth + 1))
      (some p)
    have htry : tryOut h c d p p l e = turnLenient h c d (some p) l e₁ :=
      tryOut_apply hannounced (disable_of_free c hf₁.tracked) l
    obtain ⟨f, e₂, hr₂, hf₂, hescapes⟩ | ⟨f, e₂, hr₂, hf₂⟩ | ⟨e₂, doc₂, hr₂, hf₂, hgrammar⟩ :=
      hf₁.turnLenient hpath hI hmodified (some p) l
    · rw [Action.bind_apply, hr₂] at hhandled
      refine .inl ⟨f, e₂, _, l, ?_, hf₂, rfl, ?_⟩
      · exact setGrammar_of_broken hbefore hf hne hannounced hhandled
      · rw [htold] at hescapes
        exact hescapes
    · -- The document has the grammar that is given back to it.
      have hsame : setGrammar h c (depth + 1) d p e₂ = (.ok (), e₂) :=
        setGrammar_same h c hf₂.holds depth
      rw [Action.bind_apply, hr₂] at hhandled
      simp only [abortEnable, Action.bind_apply, hsame] at hhandled
      obtain ⟨e', hr, hf'⟩ := setGrammar_of_handled hbefore hafter hf hne hannounced hhandled hf₂
      refine .inr ⟨e', _, none, hr, hf', rfl, Or.inl rfl, fun hnone => by contradiction, ?_⟩
      intro hfree
      refine absurd ⟨l, rfl, (refused_iff (htry.trans hr₂)).mpr rfl⟩ hfree
    · rw [Action.bind_apply, hr₂] at hhandled
      obtain ⟨e', hr, hf'⟩ := setGrammar_of_handled hbefore hafter hf hne hannounced hhandled hf₂
      rw [hgrammar] at hf'
      refine .inr ⟨e', doc₂, some l, hr, hf', hgrammar, Or.inr rfl, fun _ => ?_, fun _ => rfl⟩
      rintro ⟨l', hsome, hrefused⟩
      obtain rfl := Option.some.inj hsome
      cases (refused_iff (htry.trans hr₂)).mp hrefused

/-- A canonical document is to be shown in a language, the way back to the grammar `p` included: the
converters escape, or the document is shown, or it is refused and all depends on the way back. -/
theorem enable_followed (hbefore : Listeners before) (hafter : Listeners after)
    (hf : Followed h I d o before after p none doc e) (hne : doc.grammar ≠ p) (l : String)
    (depth : Nat) :
    (∃ f e' doc', enable h c (setGrammar h c (depth + 2)) d (some p) l e = (.error f, e') ∧
      Followed h I d o before after p none doc' e' ∧ Erratic h I d ∧
      (Escapes h l e.host ∨ Refused (turnLenient h c d (some p) l) e ∧
        ∃ l', c.languageOf p = some l' ∧
          Escapes h l' (turnLenient h c d (some p) l e).2.host)) ∨
    (∃ e' doc', enable h c (setGrammar h c (depth + 2)) d (some p) l e = (.ok .success, e') ∧
      Followed h I d o before after p (some l) doc' e' ∧ doc'.grammar = doc.grammar ∧
      ¬ Refused (turnLenient h c d (some p) l) e) ∨
    (∃ outcome e' doc' t',
      enable h c (setGrammar h c (depth + 2)) d (some p) l e = (.ok outcome, e') ∧
      Followed h I d o before after p t' doc' e' ∧ doc'.grammar = p ∧
      Refused (turnLenient h c d (some p) l) e ∧ (t' = none ∨ t' = c.languageOf p) ∧
      (t' = c.languageOf p ↔ ¬ ∃ l', c.languageOf p = some l' ∧
        Refused (tryOut h c d p p l') (turnLenient h c d (some p) l e).2)) := by
  rw [enable_of_free hf.tracked]
  obtain ⟨f, e₁, hr, hf₁, hescapes⟩ | ⟨f, e₁, hr, hf₁⟩ | ⟨e₁, doc₁, hr, hf₁, hgrammar⟩ :=
    hf.turnLenient hpath hI hmodified (some p) l
  · refine .inl ⟨f, e₁, doc, ?_, hf₁, hescapes.erratic hf.host, .inl hescapes⟩
    rw [Action.bind_apply, hr]
  · -- A refusal leaves the document as it was, so that the way back starts in the same place.
    have hrefused : Refused (turnLenient h c d (some p) l) e := (refused_iff hr).mpr rfl
    rw [Action.bind_of_ok hr, hr]
    simp only [abortEnable, Action.bind_apply]
    obtain ⟨f', e₂, doc₂, l', hreverted, hf₂, hold, hescapes⟩ |
        ⟨e₂, doc₂, t₂, hreverted, hf₂, hgrammar₂, ht₂, hagrees⟩ :=
      setGrammar_back (c := c) hpath hI hmodified hbefore hafter hf₁ hne depth
    · refine .inl ⟨f', e₂, doc₂, ?_, hf₂, hescapes.erratic hf₁.host,
        .inr ⟨hrefused, l', hold, hescapes⟩⟩
      rw [hreverted]
    · refine .inr (.inr ⟨.failure f (some p), e₂, doc₂, t₂, ?_, hf₂, hgrammar₂, hrefused, ht₂,
        hagrees⟩)
      rw [hreverted]
      rfl
  · refine .inr (.inl ⟨e₁, doc₁, ?_, hf₁, hgrammar, fun hrefused => ?_⟩)
    · rw [Action.bind_of_ok hr]
      rfl
    · cases (refused_iff hr).mp hrefused

/-- A change of grammar is handled, the way back included, unless the converters escape. The
document agrees with its grammar then unless the new language and the old one are both refused. -/
theorem handleGrammar_followed (hbefore : Listeners before) (hafter : Listeners after)
    {e₁ : Editor σ κ} {doc₁ : Document κ} (hannounced : announce d g e = (.ok (), e₁))
    (htracked : e.tracked.lookup d = t)
    (hf₁ : Followed h I d o before after p t doc₁ e₁) (hgrammar : doc₁.grammar = g) (hne : g ≠ p)
    (depth : Nat) :
    (∃ f e₂ doc₂,
      handleGrammar h c (setGrammar h c (depth + 2)) d g (some p) e₁ = (.error f, e₂) ∧
      Followed h I d o before after p none doc₂ e₂ ∧ Raises h c d p g e ∧ Erratic h I d) ∨
    (∃ outcome e₂ p₂ t₂ doc₂,
      handleGrammar h c (setGrammar h c (depth + 2)) d g (some p) e₁ = (.ok outcome, e₂) ∧
      Followed h I d o before after p₂ t₂ doc₂ e₂ ∧
      (doc₂.grammar = g ∨ doc₂.grammar = p ∧ Refuses h c d p g e) ∧
      (t₂ = none ∨ t₂ = c.languageOf doc₂.grammar) ∧
      (t₂ = c.languageOf doc₂.grammar ↔ ¬ Lost h c d p g e)) := by
  cases hl : c.languageOf g with
  | none =>
    obtain ⟨outcome, e₂, doc₂, hdisabled, hf₂, hgrammar₂⟩ := hf₁.disable hpath hI hmodified (c := c)
    rw [hgrammar] at hgrammar₂
    refine .inr ⟨outcome, e₂, p, none, doc₂, ?_, hf₂, .inl hgrammar₂, .inl rfl, ?_⟩
    · rw [handleGrammar_of_none hl, hdisabled]
    · rw [hgrammar₂, hl]
      exact iff_of_true rfl (not_lost_of_none hl)
  | some l =>
    have hlost := lost_iff (h := h) (d := d) (p := p) (e := e) hl
    by_cases hother : e.tracked.lookup d = some l
    · -- Both grammars stand for the same language.
      obtain rfl : t = some l := htracked.symm.trans hother
      refine .inr ⟨.success, e₁, p, some l, doc₁, handleGrammar_of_same hl hf₁.tracked, hf₁,
        .inl hgrammar, ?_, ?_⟩
      · rw [hgrammar, hl]
        exact .inr rfl
      · rw [hgrammar, hl]
        exact iff_of_true rfl fun hgone => (hlost.mp hgone).1 hother
    obtain ⟨outcome, e₂, doc₂, hdisabled, hf₂, hgrammar₂⟩ := hf₁.disable hpath hI hmodified (c := c)
    rw [hgrammar] at hgrammar₂
    rw [handleGrammar_of_other hl (by rwa [hf₁.tracked, ← htracked]), Action.bind_of_ok hdisabled]
    have htry : tryOut h c d p g l e = turnLenient h c d (some p) l e₂ :=
      tryOut_apply hannounced hdisabled l
    have hrefuses : Refused (tryOut h c d p g l) e ↔ Refused (turnLenient h c d (some p) l) e₂ := by
      rw [Refused, Refused, htry]
    obtain ⟨f, e₃, doc₃, hr, hf₃, herratic, hescapes⟩ | ⟨e₃, doc₃, hr, hf₃, hgrammar₃, hshown⟩ |
        ⟨outcome', e₃, doc₃, t₃, hr, hf₃, hgrammar₃, hrefused, ht₃, hagrees⟩ :=
      enable_followed (c := c) hpath hI hmodified hbefore hafter hf₂ (by rwa [hgrammar₂]) l depth
    · refine .inl ⟨f, e₃, doc₃, hr, hf₃, ⟨l, hl, hother, ?_⟩, herratic⟩
      rw [hannounced, hdisabled, hrefuses, htry]
      obtain hescapes | ⟨hrefused, l', hold, hescapes⟩ := hescapes
      · exact .inl hescapes
      · exact .inr ⟨hrefused, hne, l', hold, hescapes⟩
    · rw [hgrammar₂] at hgrammar₃
      refine .inr ⟨.success, e₃, p, some l, doc₃, hr, hf₃, .inl hgrammar₃, ?_, ?_⟩
      · rw [hgrammar₃, hl]
        exact .inr rfl
      · rw [hgrammar₃, hl]
        exact iff_of_true rfl fun hgone => hshown (hrefuses.mp (hlost.mp hgone).2.1)
    · -- The new language is refused, so that all depends on the way back.
      refine .inr ⟨outcome', e₃, p, t₃, doc₃, hr, hf₃,
        .inr ⟨hgrammar₃, l, hl, hother, hrefuses.mpr hrefused⟩, ?_, ?_⟩
      · rw [hgrammar₃]
        exact ht₃
      · rw [hgrammar₃, hagrees, ← htry, hlost, and_iff_right hother,
          and_iff_right (hrefuses.mpr hrefused)]

/-- A change of grammar comes to an end unless the converters escape. The grammar is the new one
then, or the one that was noted last if the new language is refused; and the document agrees with it
if the one noted last is canonical, or is another one than the new one and the document is not lost.
The one noted last is that of the document, except after an escape, when the document does not count
as lenient. -/
theorem setGrammar_followed (hbefore : Listeners before) (hafter : Listeners after)
    (hf : Followed h I d o before after p t doc e) (ht : t = none ∨ p = doc.grammar)
    (hne : doc.grammar ≠ g) (depth : Nat) :
    (∃ f e' doc', setGrammar h c (depth + 3) d g e = (.error f, e') ∧
      Followed h I d o before after p none doc' e' ∧ Raises h c d p g e ∧ Erratic h I d) ∨
    (∃ e' doc' t', setGrammar h c (depth + 3) d g e = (.ok (), e') ∧
      Followed h I d o before after doc'.grammar t' doc' e' ∧
      (doc'.grammar = g ∨ doc'.grammar = p ∧ Refuses h c d p g e) ∧
      (t' = none ∨ t' = c.languageOf doc'.grammar) ∧
      (c.languageOf p = none → t' = c.languageOf doc'.grammar) ∧
      (g ≠ p → (t' = c.languageOf doc'.grammar ↔ ¬ Lost h c d p g e))) := by
  by_cases hold : g = p
  · -- The grammar is the one to go back to, and not that of the document.
    subst hold
    obtain rfl : t = none := ht.resolve_right (Ne.symm hne)
    obtain ⟨f, e', doc', l, hr, hf', hl, hescapes⟩ |
        ⟨e', doc', t', hr, hf', hgrammar, ht', hagrees⟩ :=
      setGrammar_back (c := c) hpath hI hmodified hbefore hafter hf hne (depth + 1)
    · refine .inl ⟨f, e', doc', hr, hf', ⟨l, hl, ?_, Or.inl ?_⟩, hescapes.erratic hf.host⟩
      · rw [hf.tracked]
        exact (Option.some_ne_none l).symm
      · obtain ⟨e₁, hannounced, htold, hf₁⟩ := announce_followed hbefore hf g
        rw [hannounced, disable_of_free c hf₁.tracked, htold]
        exact hescapes
    · rw [← hgrammar] at hf'
      refine .inr ⟨e', doc', t', hr, hf', Or.inl hgrammar, ?_, ?_, fun hother => absurd rfl hother⟩
      · rw [hgrammar]
        exact ht'
      · rw [hgrammar, hagrees]
        rintro hnone ⟨l, hsome, -⟩
        rw [hnone] at hsome
        contradiction
  obtain ⟨e₁, hannounced, -, hf₁⟩ := announce_followed hbefore hf g
  obtain ⟨f, e₂, doc₂, hhandled, hf₂, hraises, herratic⟩ |
      ⟨outcome, e₂, p₂, t₂, doc₂, hhandled, hf₂, hgrammar, ht₂, hagrees⟩ :=
    handleGrammar_followed (c := c) hpath hI hmodified hbefore hafter hannounced hf.tracked hf₁ rfl
      hold depth
  · refine .inl ⟨f, e₂, doc₂, ?_, hf₂, hraises, herratic⟩
    exact setGrammar_of_broken hbefore hf hne hannounced hhandled
  · obtain ⟨e₃, hr, hf₃⟩ := setGrammar_of_handled hbefore hafter hf hne hannounced hhandled hf₂
    refine .inr ⟨e₃, doc₂, t₂, hr, hf₃, hgrammar, ht₂, fun hnone => hagrees.mpr ?_, fun _ => hagrees⟩
    rintro ⟨l, -, hsome, -⟩
    rw [hnone] at hsome
    contradiction

end Transitions

/-! ## Runs -/

/-- The document is followed, and if it counts as lenient, then in the language of its grammar. -/
def Rests (h : Host σ κ) (I : σ → Prop) (c : ControllerSettings) (d o : Nat)
    (before after : List Observer) (e : Editor σ κ) : Prop :=
  ∃ doc t, Followed h I d o before after doc.grammar t doc e ∧
    (t = none ∨ t = c.languageOf doc.grammar)

/-- A followed document agrees with its grammar if it counts as lenient in the right language. -/
theorem Followed.agrees_iff (hf : Followed h I d o before after p t doc e) :
    Agrees h c d e ↔ t = c.languageOf doc.grammar := by
  constructor
  · intro hagrees
    rw [← hf.tracked]
    exact (hagrees doc hf.holds).1
  · intro ht doc' hdoc'
    obtain rfl := hf.holds.unique hdoc'
    rw [hf.tracked]
    exact ⟨ht, hf.mapped⟩

include hpath in
/-- An operation that replaces the document and leaves grammar, handle and observers alone changes
nothing about the agreement. -/
theorem Followed.of_done {r : Except Failure Unit × Editor σ κ} {R : Document κ → Prop}
    (hf : Followed h I d o before after p t doc e) (hdone : Done I e d r R)
    (hR : ∀ doc', R doc' → doc'.grammarObservers = doc.grammarObservers ∧
      doc'.grammar = doc.grammar ∧ doc'.handle = doc.handle) :
    ∃ doc', Followed h I d o before after p t doc' r.2 ∧ doc'.grammar = doc.grammar ∧
      doc'.handle = doc.handle := by
  obtain ⟨e₁, hfirst, ⟨f, rfl, -⟩ | ⟨doc', rfl, hdoc'⟩⟩ := hdone
  · exact ⟨doc, hf.hostOnly hpath hfirst, rfl, rfl⟩
  obtain ⟨hobservers, hgrammar, hhandle⟩ := hR doc' hdoc'
  have hf₁ := hf.hostOnly hpath hfirst
  refine ⟨doc', ⟨hf₁.holds.put doc', ?_, hf₁.known, hf₁.host, hf₁.tracked, fun ht hb => ?_⟩,
    hgrammar, hhandle⟩
  · rw [hobservers]
    exact hf.followers
  · have hsame : doc'.handle.map Handle.base = doc.handle.map Handle.base := by rw [hhandle]
    have hback : isBacked h e doc = true := (isBacked_eq hpath hf.host hf₁.host hsame).symm.trans hb
    obtain ⟨handle, hsome, hmapped⟩ := hf.mapped ht hback
    exact ⟨handle, hhandle.trans hsome, hmapped⟩

include hpath in
/-- Edits, loads and saves change nothing about the agreement. -/
theorem perform_followed (hI : h.Respects I) {step : Step σ}
    (helsewhere : ∀ f, step = .elsewhere f → ∀ s, I s → I (f s))
    (hother : ∀ g, step ≠ .setGrammar g)
    (hf : Followed h I d o before after p t doc e) :
    ∃ doc', Followed h I d o before after p t doc' (step.perform h c d e).2 ∧
      doc'.grammar = doc.grammar ∧ doc'.handle = doc.handle := by
  cases step with
  | setGrammar g => exact absurd rfl (hother g)
  | edit text =>
    refine hf.of_done hpath (setText_cases hI hf.holds text) ?_
    rintro doc' rfl
    split
    · exact ⟨rfl, rfl, rfl⟩
    · exact ⟨rfl, rfl, rfl⟩
  | load =>
    refine hf.of_done hpath (load_cases hI hf.holds) ?_
    rintro doc' (⟨-, rfl⟩ | ⟨handle, text, -, rfl⟩)
    · exact ⟨rfl, rfl, rfl⟩
    · exact ⟨rfl, rfl, rfl⟩
  | save =>
    obtain hnone | ⟨handle, hhandle⟩ := Option.eq_none_or_eq_some doc.handle
    · -- There is nothing to save to.
      have hfails : (save h d e).2 = e := by
        rw [save, Action.bind_apply, document_apply hf.holds]
        simp only [hnone]
        rfl
      exact ⟨doc, hfails.symm ▸ hf, rfl, rfl⟩
    · refine hf.of_done hpath (save_cases hI hf.holds hhandle) ?_
      rintro doc' rfl
      exact ⟨rfl, rfl, rfl⟩
  | elsewhere f =>
    have hhostOnly : HostOnly I e { e with host := f e.host } :=
      ⟨⟨rfl, rfl, ⟨[], (List.append_nil _).symm⟩, helsewhere f rfl e.host⟩, rfl, rfl⟩
    exact ⟨doc, hf.hostOnly hpath hhostOnly, rfl, rfl⟩

include hpath in
/-- A change of grammar comes to an end, and keeps the agreement unless the document gets stuck. -/
theorem Rests.setGrammar (hI : h.Respects I) (hsteady : ¬ Erratic h I d)
    (hbefore : Listeners before) (hafter : Listeners after)
    (hrests : Rests h I c d o before after e) (g : Grammar) :
    ∃ e', changeGrammar h c d g e = (.ok (), e') ∧ Rests h I c d o before after e' ∧
      (Agrees h c d e → (Agrees h c d e' ↔ ¬ Stuck h c d e g)) := by
  obtain ⟨doc, t, hf, ht⟩ := hrests
  have hdeep : maxNesting = 197 + 3 := rfl
  rw [changeGrammar, hdeep]
  by_cases hne : doc.grammar = g
  · subst hne
    refine ⟨e, setGrammar_same h c hf.holds _, ⟨doc, t, hf, ht⟩,
      fun hold => ⟨fun _ => ?_, fun _ => hold⟩⟩
    rintro ⟨doc₀, -, -, hdoc₀, hother, -⟩
    obtain rfl := hf.holds.unique hdoc₀
    exact hother rfl
  obtain ⟨-, -, -, -, -, -, herratic⟩ | ⟨e', doc', t', hr, hf', -, ht', -, hagrees⟩ :=
    setGrammar_followed (c := c) hpath hI (fun _ => checkModified_of_steady hsteady) hbefore hafter
      hf (Or.inr rfl) hne 197
  · exact absurd herratic hsteady
  refine ⟨e', hr, ⟨doc', t', hf', ht'⟩, fun _ => ?_⟩
  -- The document agrees with its grammar unless it is lost, which is to be stuck in this editor.
  rw [hf'.agrees_iff, hagrees (Ne.symm hne)]
  refine not_congr ⟨?_, ?_⟩
  · rintro ⟨l, l', hlost⟩
    exact ⟨doc, l, l', hf.holds, hne, hlost⟩
  · rintro ⟨doc₀, l, l', hdoc₀, -, hlost⟩
    obtain rfl := hf.holds.unique hdoc₀
    exact ⟨l, l', hlost⟩

include hpath in
/-- Any other step keeps the agreement. -/
theorem Rests.perform (hI : h.Respects I) {step : Step σ}
    (helsewhere : ∀ f, step = .elsewhere f → ∀ s, I s → I (f s))
    (hother : ∀ g, step ≠ .setGrammar g) (hrests : Rests h I c d o before after e) :
    Rests h I c d o before after (step.perform h c d e).2 ∧
      (Agrees h c d e → Agrees h c d (step.perform h c d e).2) := by
  obtain ⟨doc, t, hf, ht⟩ := hrests
  obtain ⟨doc', hf', hsame, -⟩ := perform_followed (c := c) hpath hI helsewhere hother hf
  rw [← hsame] at hf' ht
  refine ⟨⟨doc', t, hf', ht⟩, fun hold => ?_⟩
  -- whether the document agrees is a matter of its grammar, which is the same
  rw [hf'.agrees_iff, hsame]
  exact hf.agrees_iff.mp hold

include hpath in
/-- A document that is followed stays so in a run. -/
theorem Rests.run (hI : h.Respects I) (hsteady : ¬ Erratic h I d)
    (hbefore : Listeners before) (hafter : Listeners after)
    (hrests : Rests h I c d o before after e) {steps : List (Step σ)}
    (helsewhere : ∀ f, .elsewhere f ∈ steps → ∀ s, I s → I (f s)) :
    ∀ k, Rests h I c d o before after (run h c d e (steps.take k)) := by
  refine run_induction hrests fun k step hstep hold => ?_
  rw [run_take_succ h c d _ hstep]
  by_cases hgrammar : ∃ g, step = .setGrammar g
  · obtain ⟨g, rfl⟩ := hgrammar
    obtain ⟨e', hr, hrests', -⟩ := hold.setGrammar hpath hI hsteady hbefore hafter g
    rw [Step.perform, hr]
    exact hrests'
  · refine (hold.perform hpath hI ?_ fun g hg => hgrammar ⟨g, hg⟩).1
    rintro f rfl
    exact helsewhere f (List.mem_of_getElem? hstep)

include hpath in
/-- Between changes of grammar the agreement is kept, so that it holds throughout a run if every
change of grammar keeps it. -/
theorem Rests.agrees_run (hI : h.Respects I) (hsteady : ¬ Erratic h I d)
    (hbefore : Listeners before) (hafter : Listeners after)
    (hrests : Rests h I c d o before after e) {steps : List (Step σ)}
    (helsewhere : ∀ f, .elsewhere f ∈ steps → ∀ s, I s → I (f s)) (hagrees : Agrees h c d e)
    (hkeeps : ∀ k g, steps[k]? = some (.setGrammar g) →
      Agrees h c d (Editor.run h c d e (steps.take k)) →
      Agrees h c d (Editor.run h c d e (steps.take (k + 1)))) :
    ∀ k, Agrees h c d (Editor.run h c d e (steps.take k)) := by
  refine run_induction hagrees fun k step hstep hold => ?_
  by_cases hgrammar : ∃ g, step = .setGrammar g
  · obtain ⟨g, rfl⟩ := hgrammar
    exact hkeeps k g hstep hold
  · have hrests' := hrests.run hpath hI hsteady hbefore hafter helsewhere k
    rw [run_take_succ h c d _ hstep]
    refine (hrests'.perform hpath hI ?_ fun g hg => hgrammar ⟨g, hg⟩).2 hold
    rintro f rfl
    exact helsewhere f (List.mem_of_getElem? hstep)

end Followed

/-- A document that has just been observed is followed and agrees with its grammar. -/
theorem rests_observing (h : Host σ κ) (hstart : Unobserved c d e doc) (hhost : I e.host) :
    Rests h I c d e.observations.length doc.grammarObservers.callbacks [] (observing e d doc) ∧
      Agrees h c d (observing e d doc) := by
  have hf : Followed h I d e.observations.length doc.grammarObservers.callbacks [] doc.grammar none
      (followed doc e.observations.length) (observing e d doc) := by
    refine ⟨hstart.holds.put _, rfl, List.getElem?_concat_length, hhost, hstart.free, ?_⟩
    exact fun hnone => absurd hnone Bool.false_ne_true
  exact ⟨⟨followed doc e.observations.length, none, hf, Or.inl rfl⟩,
    hf.agrees_iff.mpr hstart.canonical.symm⟩

/-- Every change of grammar in a run comes to an end, and after every one the document agrees with
its grammar, exactly if no change gets stuck. -/
theorem agrees_run_iff (hI : h.Respects I)
    (hpath : ∀ n s s', I s → I s' → h.files.path n s = h.files.path n s')
    (hsteady : ¬ Erratic h I d) (hstart : Unobserved c d e doc) (hhost : I e.host)
    {steps : List (Step σ)} (helsewhere : ∀ f, .elsewhere f ∈ steps → ∀ s, I s → I (f s)) :
    (∀ k g, steps[k]? = some (.setGrammar g) →
      (changeGrammar h c d g (run h c d (observe h c d e).2 (steps.take k))).1 = .ok ()) ∧
    ((∀ k g, steps[k]? = some (.setGrammar g) →
        Agrees h c d (run h c d (observe h c d e).2 (steps.take (k + 1)))) ↔
      ∀ k g, steps[k]? = some (.setGrammar g) →
        ¬ Stuck h c d (run h c d (observe h c d e).2 (steps.take k)) g) := by
  rw [show (observe h c d e).2 = observing e d doc by rw [observe_apply h hstart]]
  have hnamed (n : Nat) (s s' : σ) (hs : I s) (hs' : I s') :
      h.files.path n s = "" ↔ h.files.path n s' = "" := by
    rw [hpath n s s' hs hs']
  obtain ⟨hrests₀, hagrees₀⟩ := rests_observing h hstart hhost
  have hlisteners : Listeners doc.grammarObservers.callbacks := hstart.alone
  have hnobody : Listeners [] := fun n hn => absurd hn List.not_mem_nil
  have hrests := hrests₀.run hnamed hI hsteady hlisteners hnobody helsewhere
  have hthroughout :=
    hrests₀.agrees_run hnamed hI hsteady hlisteners hnobody helsewhere hagrees₀
  -- A change of grammar is all that may end the agreement, and it does so just when it gets stuck.
  refine ⟨fun k g hstep => ?_, fun hall k g hstep => ?_, fun hfree k g hstep => ?_⟩
  · obtain ⟨e', hr, -⟩ := (hrests k).setGrammar hnamed hI hsteady hlisteners hnobody g
    rw [hr]
  · obtain ⟨e', hr, -, hiff⟩ := (hrests k).setGrammar hnamed hI hsteady hlisteners hnobody g
    have hbefore := hthroughout (fun k g hstep _ => hall k g hstep) k
    have hafter := hall k g hstep
    rw [run_take_succ h c d _ hstep, Step.perform, hr] at hafter
    exact (hiff hbefore).mp hafter
  · refine hthroughout (fun k g hstep hold => ?_) (k + 1)
    obtain ⟨e', hr, -, hiff⟩ := (hrests k).setGrammar hnamed hI hsteady hlisteners hnobody g
    rw [run_take_succ h c d _ hstep, Step.perform, hr]
    exact (hiff hold).mpr (hfree k g hstep)

/-! ## A script that is edited to what cannot be converted -/

/-- A script is shown in the lenient dialect, edited to a text in which a parenthesis is not closed,
and given another grammar. -/
def unclosed (g : Grammar) : List (Step Memory) :=
  [.setGrammar ⟨"source.js.lenient", "Lenient JavaScript"⟩, .edit (Text.ofString "("),
    .setGrammar g]

/-- The editor after some of these steps. -/
def afterUnclosed (g : Grammar) (k : Nat) : Editor Memory ConverterSet :=
  let c : ControllerSettings := ⟨ControllerSettings.standardScopes, true⟩
  run Memory.host c 0 (observe Memory.host c 0 (Memory.oneScript (Text.ofString "1;\n"))).2
    ((unclosed g).take k)

/-- The script in memory is not observed yet. -/
theorem unobserved_oneScript (t : Text) :
    Unobserved ⟨ControllerSettings.standardScopes, true⟩ 0 (Memory.oneScript t)
      (Memory.script t) := by
  refine ⟨rfl, ?_, rfl, fun n hn => absurd hn List.not_mem_nil⟩
  show ControllerSettings.standardScopes.lookup "source.js" = none
  decide +kernel

/-- If the last grammar is canonical, the document agrees with both grammars, although its text
cannot be converted. -/
theorem agrees_afterUnclosed :
    Agrees Memory.host ⟨ControllerSettings.standardScopes, true⟩ 0
        (afterUnclosed ⟨"source.js", "JavaScript"⟩ 1) ∧
      Agrees Memory.host ⟨ControllerSettings.standardScopes, true⟩ 0
        (afterUnclosed ⟨"source.js", "JavaScript"⟩ 3) := by
  let e : Editor Memory ConverterSet := Memory.oneScript (Text.ofString "1;\n")
  have hstart := unobserved_oneScript (Text.ofString "1;\n")
  have hpath (n : Nat) (m m' : Memory) (hm : Memory.Like e.host m) (hm' : Memory.Like e.host m') :
      Memory.host.files.path n m = Memory.host.files.path n m' :=
    (hm.path_eq n).trans (hm'.path_eq n).symm
  have hsteady : ¬ Erratic Memory.host (Memory.Like e.host) 0 := by
    refine Memory.not_erratic List.not_mem_nil fun l f hlookup => ?_
    have hrecipes : ∀ p ∈ (Recipe.standard 2).recipes, p.2.isOk := by decide +kernel
    obtain ⟨first, rest, hsplit, -⟩ := List.lookup_eq_some_iff.mp hlookup
    have hmem : (l, .error f) ∈ (Recipe.standard 2).recipes := by
      rw [show (Recipe.standard 2).recipes = first ++ (l, .error f) :: rest from hsplit]
      exact List.mem_append_right first List.mem_cons_self
    exact absurd (hrecipes _ hmem) Bool.false_ne_true
  have hmoves : ∀ f, .elsewhere f ∈ unclosed ⟨"source.js", "JavaScript"⟩ →
      ∀ m, Memory.Like e.host m → Memory.Like e.host (f m) := by
    intro f hf
    simp [unclosed] at hf
  have hagrees := (agrees_run_iff (Memory.respects_like e.host) hpath hsteady hstart
    (Memory.Like.refl _) hmoves).2.mpr
  have hfree := hagrees fun k g hstep => ?_
  · exact ⟨hfree 0 _ rfl, hfree 2 _ rfl⟩
  · -- Either the old grammar is canonical or the new one is.
    rintro ⟨doc, l, l', hdoc, -, hold, hnew, -⟩
    have hcases : k = 0 ∨ g = ⟨"source.js", "JavaScript"⟩ := by
      rcases k with _ | _ | _ | k
      · exact Or.inl rfl
      · simp [unclosed] at hstep
      · simp [unclosed] at hstep
        exact Or.inr hstep.symm
      · simp [unclosed] at hstep
    rcases hcases with rfl | rfl
    · rw [List.take_zero, run_nil, observe_apply Memory.host hstart] at hdoc
      obtain rfl := (hstart.holds.put _).unique hdoc
      exact absurd (hstart.canonical.symm.trans hold) (Option.some_ne_none l).symm
    · exact absurd (hstart.canonical.symm.trans hnew) (Option.some_ne_none l').symm

/-- If the last grammar is a lenient one of another language, the document gets the grammar of the
first language back without being lenient. -/
theorem not_agrees_afterUnclosed :
    ¬ Agrees Memory.host ⟨ControllerSettings.standardScopes, true⟩ 0
      (afterUnclosed ⟨"source.json.lenient", "Lenient JSON"⟩ 3) := by
  intro hagrees
  have hleft : (afterUnclosed ⟨"source.json.lenient", "Lenient JSON"⟩ 3).tracked.lookup 0 = none ∧
      (afterUnclosed ⟨"source.json.lenient", "Lenient JSON"⟩ 3).documents[0]?.map Document.grammar
        = some ⟨"source.js.lenient", "Lenient JavaScript"⟩ := by decide +kernel
  obtain ⟨hfree, hgrammar⟩ := hleft
  obtain ⟨doc, hdoc, hscope⟩ := Option.map_eq_some_iff.mp hgrammar
  have hlanguage := (hagrees doc hdoc).1
  rw [hfree, hscope] at hlanguage
  have hknown : ControllerSettings.standardScopes.lookup "source.js.lenient" = some "js" := by
    decide +kernel
  exact absurd (hlanguage.trans hknown) (Option.some_ne_none "js").symm

end Dialects.Editor

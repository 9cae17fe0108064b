import Dialects.Proofs.Editor.Attendance

/-!
# What has come of a change of grammar

A change of grammar may fail at many points: the converters of the new language cannot be had or
cannot convert the text, the new text cannot be set, or the document cannot be loaded. Unless those
who are asked for converters fail in a way that is not expected (`Raises`), the change comes to an
end all the same, and the document has landed (`Landed`): it is lenient in the language of its
grammar, behind a handle that is mapped from its own, or it is canonical behind its own handle. The
grammar is the new one, or the one before if the new language is refused.

Which handle a document has is an invariant of its own, `Housed`. It is kept whether or not a change
of grammar comes to an end, and does not depend on the order of nested changes.

## Main definitions

* `Landed`: what a change of grammar leads to.

## Main results

* `kept_housed`: a change of grammar keeps a document with its own handle or a mapped one;
* `landed_run`: every change of grammar in a run of an observed document comes to an end and lands
  it, unless converters are asked for and this fails unexpectedly.
-/

namespace Dialects.Editor

open Dialects.Action

variable {σ κ : Type} {I : σ → Prop} {h : Host σ κ} {c : ControllerSettings} {e e' e₀ : Editor σ κ}
  {d o : Nat} {doc doc' : Document κ} {observers before after : List Observer} {p g : Grammar}
  {base : Option (Handle (Binding κ))}

/-! ## What is claimed -/

/-- The document does not count as lenient, and has its own handle. -/
structure IsCanonical (d : Nat) (base : Option (Handle (Binding κ))) (doc : Document κ)
    (e : Editor σ κ) : Prop where
  free : e.tracked.lookup d = none
  handle : doc.handle = base

/-- The document counts as lenient in the language of the grammar `g`, which it has, and if it has a
file, then a handle that is mapped from its own. -/
structure IsLenientUnder (h : Host σ κ) (c : ControllerSettings) (d : Nat)
    (base : Option (Handle (Binding κ))) (g : Grammar) (doc : Document κ) (e : Editor σ κ) :
    Prop where
  grammar : doc.grammar = g
  language : ∃ l, e.tracked.lookup d = some l ∧ c.languageOf g = some l
  mapped : isBacked h e doc = true →
    ∃ inner binding, base = some inner ∧ doc.handle = some (.mapped inner binding)

/-- The document is lenient under the grammar `g`, or canonical. -/
def Stands (h : Host σ κ) (c : ControllerSettings) (d : Nat) (base : Option (Handle (Binding κ)))
    (g : Grammar) (e : Editor σ κ) : Prop :=
  ∃ doc, e.Holds d doc ∧ (IsLenientUnder h c d base g doc e ∨ IsCanonical d base doc e)

/-- What has come of a change of grammar to `g` if the grammar `p` was the one to go back to. -/
structure Landed (h : Host σ κ) (c : ControllerSettings) (d : Nat)
    (base : Option (Handle (Binding κ))) (p g : Grammar) (e e' : Editor σ κ) : Prop where
  /-- The document is lenient under the new grammar, or canonical; or the new language is refused,
  and the document is lenient under the grammar before. -/
  standing : Stands h c d base g e' ∨ Refuses h c d p g e ∧
    ∃ doc', e'.Holds d doc' ∧ IsLenientUnder h c d base p doc' e'
  /-- A canonical grammar is given back if the document has not been turned lenient. -/
  restored : ∀ doc doc', e.Holds d doc → e'.Holds d doc' → doc.grammar ≠ g →
    c.languageOf p = none → (c.languageOf g).isSome → e'.tracked.lookup d = none →
      doc'.grammar = p

/-! ## The handle of a document -/

/-- The document has its own handle, or one that is mapped from it if it counts as lenient and has a
file. -/
def Houses (h : Host σ κ) (d : Nat) (base : Option (Handle (Binding κ))) (doc : Document κ)
    (e : Editor σ κ) : Prop :=
  if e.isLenient d && isBacked h e doc then
    ∃ inner binding, base = some inner ∧ doc.handle = some (.mapped inner binding)
  else doc.handle = base

/-- The document has these observers, and has its own handle or a mapped one. -/
structure Housed (h : Host σ κ) (I : σ → Prop) (d : Nat) (observers : List Observer)
    (base : Option (Handle (Binding κ))) (e : Editor σ κ) : Prop where
  attached : Attached d observers e
  host : I e.host
  houses : ∀ doc, e.Holds d doc → Houses h d base doc e

/-- A document that does not count as lenient has its own handle. -/
theorem Houses.own (hh : Houses h d base doc e) (hfree : e.tracked.lookup d = none) :
    doc.handle = base := by
  rwa [Houses, isLenient, hfree, if_neg (by simp)] at hh

/-- The document has been replaced by one with the same observers. -/
theorem Housed.of_shape {t : List (Nat × String)} (hh : Housed h I d observers base e)
    (hdoc : e.Holds d doc) (hshape : Shape I e d doc' t e')
    (hobservers : doc'.grammarObservers = doc.grammarObservers) (hhouses : Houses h d base doc' e') :
    Housed h I d observers base e' := by
  obtain ⟨⟨doc₀, hdoc₀, hsame⟩, hown⟩ := hh.attached
  obtain rfl := hdoc.unique hdoc₀
  have hdoc' := hshape.holds hdoc
  refine ⟨⟨⟨doc', hdoc', by rw [hobservers, hsame]⟩, ?_⟩, hshape.host hh.host,
    fun doc'' hdoc'' => ?_⟩
  · rw [hshape.observations]
    exact hown
  · rw [← hdoc'.unique hdoc'']
    exact hhouses

section Housed

variable (hpath : ∀ n s s', I s → I s' → (h.files.path n s = "" ↔ h.files.path n s' = ""))

include hpath

/-- Which handle a document should have depends on whether it counts as lenient. -/
theorem Houses.congr (hh : Houses h d base doc e) (hhost : I e.host) (hhost' : I e'.host)
    (hhandle : doc'.handle = doc.handle)
    (htracked : e'.tracked.lookup d = e.tracked.lookup d) : Houses h d base doc' e' := by
  have hbacked := isBacked_eq hpath hhost hhost' (congrArg (Option.map Handle.base) hhandle)
  rw [Houses, isLenient_congr htracked, hbacked, hhandle]
  exact hh

/-- What only the host does leaves a document housed. -/
theorem Housed.of_hostOnly (hh : Housed h I d observers base e) (hhostOnly : HostOnly I e e') :
    Housed h I d observers base e' := by
  obtain ⟨doc, hdoc, -⟩ := hh.attached.1
  refine hh.of_shape hdoc ((Shape.refl hdoc).hostOnly hhostOnly) rfl ?_
  refine (hh.houses doc hdoc).congr hpath hh.host (hhostOnly.host hh.host) rfl ?_
  rw [hhostOnly.tracked]

variable (hI : h.Respects I)

include hI

/-- A document that is turned lenient gets a mapped handle if it has a file, and keeps its own one
if it has none or if it is refused. -/
theorem Housed.turnLenient (hh : Housed h I d observers base e)
    (hfree : e.tracked.lookup d = none) (previous : Option Grammar) (l : String) :
    Housed h I d observers base (turnLenient h c d previous l e).2 := by
  obtain ⟨doc, hdoc, -⟩ := hh.attached.1
  have hown := (hh.houses doc hdoc).own hfree
  obtain ⟨e', f, hhostOnly, hr, -⟩ | ⟨e', f, hhostOnly, hr⟩ | ⟨e', doc', hr, hshape, hshown⟩ :=
    turnLenient_cases hI c hdoc hh.host
      (isBacked_same hpath doc hh.host) hfree previous l
  · rw [hr]
    exact hh.of_hostOnly hpath hhostOnly
  · rw [hr]
    exact hh.of_hostOnly hpath hhostOnly
  rw [hr]
  refine hh.of_shape hdoc hshape hshown.akin.grammarObservers ?_
  have hlenient : e'.isLenient d = true := by
    rw [isLenient, hshape.tracked, lookup_append_self hfree]
    rfl
  -- Whether there is a file is the same before and after.
  have hbacked (hbase : doc'.handle.map Handle.base = doc.handle.map Handle.base) :
      isBacked h e' doc' = isBacked h e doc :=
    isBacked_eq hpath hh.host (hshape.host hh.host) hbase
  rw [Houses, hlenient, Bool.true_and]
  cases hb : isBacked h e doc with
  | true =>
    obtain ⟨inner, binding, hinner, hhandle⟩ := hshown.mapped hb
    rw [if_pos (by rw [hbacked (by rw [hhandle, hinner]; rfl), hb])]
    exact ⟨inner, binding, hown ▸ hinner, hhandle⟩
  | false =>
    have hhandle := hshown.unbacked hb
    rw [if_neg (by rw [hbacked (by rw [hhandle]), hb]; exact Bool.false_ne_true), hhandle]
    exact hown

variable (hmodified : ∀ s, I s → (h.checkModified d s).1 = .ok ())
  (hbase : ∀ inner, base = some inner → inner.isMapped = false)

include hmodified hbase

/-- A document that is turned canonical has its own handle again. -/
theorem Housed.disable :
    Preserves (Housed h I d observers base) (disable h c d) := by
  intro e hh
  obtain ⟨doc, hdoc, -⟩ := hh.attached.1
  cases htracked : e.tracked.lookup d with
  | none =>
    rw [disable_of_free c htracked]
    exact hh
  | some l =>
    obtain ⟨-, f, -, -, -, s, hhost, herror⟩ | ⟨e', doc', outcome, hr, hshape, hakin, hhandle, -⟩ :=
      disable_cases hI c hdoc hh.host
        (isBacked_same hpath doc hh.host) htracked
    · rw [hmodified s hhost] at herror
      contradiction
    rw [hr]
    refine hh.of_shape hdoc hshape hakin.grammarObservers ?_
    have hfree : e'.isLenient d = false := by
      rw [isLenient, hshape.tracked, lookup_filter_self]
      rfl
    rw [Houses, hfree, Bool.false_and, if_neg Bool.false_ne_true, hhandle]
    have hhouses := hh.houses doc hdoc
    rw [Houses] at hhouses
    split at hhouses
    · obtain ⟨inner, binding, rfl, hmapped⟩ := hhouses
      rw [hmapped]
      rfl
    · -- A handle of its own is not mapped, so that there is nothing to take off.
      rw [hhouses]
      cases base with
      | none => rfl
      | some inner => exact congrArg some (unmapped_of_not_mapped (hbase inner rfl))

/-- What keeps a document with its own handle or a mapped one. -/
theorem kept_housed : Kept h c d observers (Housed h I d observers base) where
  attached _ hh := hh.attached
  grammar g e hh doc hdoc := by
    refine hh.of_shape hdoc ((Shape.refl hdoc).put _) rfl ?_
    exact (hh.houses doc hdoc).congr hpath hh.host hh.host rfl rfl
  mark _ _ _ hh := ⟨hh.attached, hh.host, hh.houses⟩
  noted n g e hh := by
    -- An observation that takes note of a grammar follows the document that it followed before.
    refine ⟨⟨hh.attached.1, fun m o hm ho => ?_⟩, hh.host, hh.houses⟩
    have hsame := congrFun (documentOf_noted e n g) m
    rw [documentOf, ho] at hsame
    obtain ⟨o', ho', hdocument⟩ := Option.map_eq_some_iff.mp hsame.symm
    rw [← hdocument]
    exact hh.attached.2 m o' hm ho'
  disable := Housed.disable hpath hI hmodified hbase
  lenient previous l _ hh hfree := hh.turnLenient hpath hI hfree previous l

end Housed

/-! ## Steps -/

/-- The document is followed through an observation, with its own handle or a mapped one. It counts
as lenient, if at all, in the language of its grammar, which is the one that was noted last. -/
def Waits (h : Host σ κ) (I : σ → Prop) (c : ControllerSettings) (d o : Nat)
    (before after : List Observer) (base : Option (Handle (Binding κ))) (p : Grammar)
    (e : Editor σ κ) : Prop :=
  ∃ doc t, Followed h I d o before after p t doc e ∧ Houses h d base doc e ∧
    (t = none ∨ t = c.languageOf doc.grammar) ∧ (t = none ∨ p = doc.grammar)

/-- A document that waits is canonical, or lenient under its grammar. -/
theorem Waits.standing (hw : Waits h I c d o before after base p e) (hdoc : e.Holds d doc) :
    IsLenientUnder h c d base doc.grammar doc e ∨ IsCanonical d base doc e := by
  obtain ⟨doc₁, t, hf, hhouses, ht, -⟩ := hw
  obtain rfl := hf.holds.unique hdoc
  cases t with
  | none => exact Or.inr ⟨hf.tracked, hhouses.own hf.tracked⟩
  | some l =>
    -- a document that counts as lenient does so in the language of its grammar
    have hlanguage := (ht.resolve_left (Option.some_ne_none l)).symm
    refine Or.inl ⟨rfl, ⟨l, hf.tracked, hlanguage⟩, fun hb => ?_⟩
    rw [Houses, isLenient, hf.tracked, hb] at hhouses
    exact hhouses

/-- Whoever follows the document follows no other one. -/
theorem Followed.attached {t : Option String} (hf : Followed h I d o before after p t doc e)
    (hbefore : Listeners before) (hafter : Listeners after) :
    Attached d (before ++ .controller o :: after) e := by
  refine ⟨⟨doc, hf.holds, hf.followers⟩, fun n o' hn ho' => ?_⟩
  rcases List.mem_append.mp hn with hn | hn
  · -- a listener is no controller
    exact absurd hn (hbefore n)
  rcases List.mem_cons.mp hn with hn | hn
  · obtain rfl := Observer.controller.inj hn
    obtain rfl := Option.some.inj (hf.known.symm.trans ho')
    rfl
  · exact absurd hn (hafter n)

section Steps

variable (hpath : ∀ n s s', I s → I s' → (h.files.path n s = "" ↔ h.files.path n s' = ""))
  (hI : h.Respects I)

include hpath hI

/-- A change of grammar lands a document that waits, unless converters escape; and afterwards it
waits again. -/
theorem Waits.setGrammar (hmodified : ∀ s, I s → (h.checkModified d s).1 = .ok ())
    (hbase : ∀ inner, base = some inner → inner.isMapped = false) (hbefore : Listeners before)
    (hafter : Listeners after) (hw : Waits h I c d o before after base p e) (g : Grammar) :
    (∃ p', Waits h I c d o before after base p' (changeGrammar h c d g e).2) ∧
      (¬ Raises h c d p g e → (changeGrammar h c d g e).1 = .ok () ∧
        Landed h c d base p g e (changeGrammar h c d g e).2) := by
  have hdeep : maxNesting = 197 + 3 := rfl
  obtain ⟨doc, t, hf, hhouses, ht, hp⟩ := id hw
  have hh : Housed h I d (before ++ .controller o :: after) base e := by
    refine ⟨hf.attached hbefore hafter, hf.host, fun doc' hdoc' => ?_⟩
    rw [← hf.holds.unique hdoc']
    exact hhouses
  have hh' := (kept_housed (c := c) hpath hI hmodified hbase).setGrammar maxNesting g e hh
  rw [changeGrammar]
  rw [hdeep] at hh' ⊢
  by_cases hne : doc.grammar = g
  · subst hne
    rw [setGrammar_same h c hf.holds (197 + 2)]
    refine ⟨⟨p, hw⟩, fun _ => ⟨rfl, Or.inl ⟨doc, hf.holds, hw.standing hf.holds⟩, ?_⟩⟩
    intro doc₁ _ hdoc₁ _ hother
    obtain rfl := hf.holds.unique hdoc₁
    exact absurd rfl hother
  obtain ⟨f, e', doc', hr, hf', hraises, -⟩ |
      ⟨e', doc', t', hr, hf', hgrammar, ht', hcanonical, -⟩ :=
    setGrammar_followed (c := c) hpath hI hmodified hbefore hafter hf hp hne 197
  · -- The change breaks off, but the document is followed still and does not count as lenient.
    rw [hr] at hh' ⊢
    refine ⟨⟨p, doc', none, hf', hh'.houses doc' hf'.holds, Or.inl rfl, Or.inl rfl⟩, fun hfree => ?_⟩
    exact absurd hraises hfree
  rw [hr] at hh' ⊢
  have hw' : Waits h I c d o before after base doc'.grammar e' :=
    ⟨doc', t', hf', hh'.houses doc' hf'.holds, ht', Or.inr rfl⟩
  refine ⟨⟨doc'.grammar, hw'⟩, fun _ => ⟨rfl, ?_, ?_⟩⟩
  · rcases hw'.standing hf'.holds with hlenient | hcanonical
    · rcases hgrammar with hnew | ⟨hold, hrefused⟩
      · rw [hnew] at hlenient
        exact Or.inl ⟨doc', hf'.holds, Or.inl hlenient⟩
      · rw [hold] at hlenient
        exact Or.inr ⟨hrefused, doc', hf'.holds, hlenient⟩
    · exact Or.inl ⟨doc', hf'.holds, Or.inr hcanonical⟩
  · intro doc₁ doc₂ _ hdoc₂ _ hnone hsome hfree
    obtain rfl := hf'.holds.unique hdoc₂
    rcases hgrammar with hnew | ⟨hold, -⟩
    · -- Under the new grammar it would be lenient.
      have hlanguage := hcanonical hnone
      rw [← hf'.tracked, hfree, hnew] at hlanguage
      rw [← hlanguage] at hsome
      contradiction
    · exact hold

/-- After any other step the document waits as before. -/
theorem Waits.perform {step : Step σ} (hw : Waits h I c d o before after base p e)
    (helsewhere : ∀ f, step = .elsewhere f → ∀ s, I s → I (f s))
    (hother : ∀ g, step ≠ .setGrammar g) :
    Waits h I c d o before after base p (step.perform h c d e).2 := by
  obtain ⟨doc, t, hf, hhouses, ht, hp⟩ := hw
  obtain ⟨doc', hf', hgrammar, hhandle⟩ :=
    perform_followed (c := c) hpath hI helsewhere hother hf
  rw [← hgrammar] at ht hp
  refine ⟨doc', t, hf', hhouses.congr hpath hf.host hf'.host hhandle ?_, ht, hp⟩
  rw [hf'.tracked, hf.tracked]

/-! ## The start of a run -/

/-- Nothing is kept of the document yet: it does not count as lenient, the controller does not
follow it, and its handle is not a mapped one. Its grammar may be any. -/
structure Unseen (d : Nat) (e : Editor σ κ) (doc : Document κ) : Prop where
  holds : e.Holds d doc
  free : e.tracked.lookup d = none
  alone : Listeners doc.grammarObservers.callbacks
  own : ∀ inner, doc.handle = some inner → inner.isMapped = false

omit hpath hI in
/-- Once the first look has been taken, the document is followed. -/
theorem waits_of_shape {t : List (Nat × String)} {e₂ : Editor σ κ} {doc₂ : Document κ}
    (hhost : I e.host) (hdoc : e.Holds d doc) (hshape : Shape I (entered e d) d doc₂ t e₂)
    (hakin : doc.Akin doc₂) (hhouses : Houses h d base doc₂ e₂)
    (ht : t.lookup d = none ∨ t.lookup d = c.languageOf doc₂.grammar) :
    Waits h I c d e.observations.length doc.grammarObservers.callbacks [] base doc₂.grammar
      ((e₂.noted e.observations.length doc₂.grammar).put d
        (followed doc₂ e.observations.length)) := by
  -- taking note of a grammar leaves the documents alone
  have hdoc₂ : (e₂.noted e.observations.length doc₂.grammar).Holds d doc₂ :=
    hshape.holds (show (entered e d).Holds d doc from hdoc)
  refine ⟨followed doc₂ e.observations.length, t.lookup d,
    ⟨hdoc₂.put _, ?_, ?_, hshape.host hhost, congrArg _ hshape.tracked, fun hsome hb => ?_⟩,
    hhouses, ht, Or.inr rfl⟩
  · show (doc₂.grammarObservers.subscribe (.controller e.observations.length)).callbacks = _
    rw [Emitter.callbacks_subscribe, hakin.grammarObservers]
  · show (e₂.observations.modify _ _)[e.observations.length]? = _
    -- the observation is the one that was added last
    have hlast : e₂.observations[e.observations.length]? = some ⟨d, none⟩ := by
      rw [hshape.observations]
      exact List.getElem?_concat_length
    rw [List.getElem?_modify, hlast]
    simp
  · have hlenient : e₂.isLenient d = true := by
      rw [isLenient, hshape.tracked]
      exact hsome
    have hback : isBacked h e₂ doc₂ = true := hb
    rw [Houses, hlenient, hback] at hhouses
    obtain ⟨inner, binding, -, hhandle⟩ := hhouses
    exact ⟨.mapped inner binding, hhandle, rfl⟩

/-- A document waits from the moment when it has been observed. -/
theorem waits_of_observe (hstart : Unseen d e doc) (hhost : I e.host)
    (hobserved : observe h c d e = (.ok o, e₀)) :
    ∃ p, Waits h I c d o doc.grammarObservers.callbacks [] doc.handle p e₀ := by
  have henter : (entered e d).Holds d doc := hstart.holds
  have hfree : (entered e d).tracked.lookup d = none := hstart.free
  have hh : Housed h I d doc.grammarObservers.callbacks doc.handle (entered e d) := by
    refine ⟨⟨⟨doc, henter, rfl⟩, fun n _ hn => absurd hn (hstart.alone n)⟩, hhost,
      fun doc' hdoc' => ?_⟩
    obtain rfl := henter.unique hdoc'
    rw [Houses, isLenient, hfree, if_neg (by simp)]
  have hlooked : Housed h I d doc.grammarObservers.callbacks doc.handle
      (firstLook h c d doc.grammar (entered e d)).2 := by
    rw [firstLook]
    cases c.languageOf doc.grammar with
    | none => exact hh
    | some l => exact hh.turnLenient hpath hI hfree none l
  obtain ⟨f, e₂, hr, -⟩ | ⟨r, e₂, hr, hhostOnly⟩ | ⟨l, e₂, doc₂, hl, hr, hshape, hakin⟩ :=
    firstLook_ends (c := c) hI henter hhost hfree
  · -- the first look has failed, so that nothing is observed
    rw [(observe_of_firstLook hstart.holds hstart.free hr).1 f rfl] at hobserved
    cases (Prod.mk.inj hobserved).1
  · -- the document is not turned lenient, whether or not that has been tried
    have hdoc₂ := hhostOnly.holds henter
    rw [hr] at hlooked
    rw [(observe_of_firstLook hstart.holds hstart.free hr).2 r doc rfl hdoc₂] at hobserved
    obtain ⟨ho, rfl⟩ := Prod.mk.inj hobserved
    obtain rfl := Except.ok.inj ho
    exact ⟨doc.grammar, waits_of_shape hhost hstart.holds ((Shape.refl henter).hostOnly hhostOnly)
      (.refl doc) (hlooked.houses doc hdoc₂) (Or.inl hfree)⟩
  · -- the document has been turned lenient in the language of its grammar
    have hdoc₂ := hshape.holds henter
    rw [hr] at hlooked
    rw [(observe_of_firstLook hstart.holds hstart.free hr).2 none doc₂ rfl hdoc₂] at hobserved
    obtain ⟨ho, rfl⟩ := Prod.mk.inj hobserved
    obtain rfl := Except.ok.inj ho
    refine ⟨doc₂.grammar, waits_of_shape hhost hstart.holds hshape hakin (hlooked.houses doc₂ hdoc₂)
      (Or.inr ?_)⟩
    rw [lookup_append_self hfree, hakin.grammar, hl]

/-! ## Runs -/

/-- The grammar that an observation has noted last. -/
def noticed (e : Editor σ κ) (o : Nat) : Option Grammar := e.observations[o]?.bind Observation.previous

omit hpath hI in
/-- An observation that waits has noticed the previous grammar. -/
theorem Waits.noticed_eq (hw : Waits h I c d o before after base p e) : e.noticed o = some p := by
  obtain ⟨doc, t, hf, -⟩ := hw
  rw [noticed, hf.known]
  rfl

/-- Whatever has happened to an observed document and whatever has failed: a change of its grammar
comes to an end and lands it, unless converters are asked for in the course of the change and this
fails for another reason than that there are none. -/
theorem landed_run (hmodified : ∀ s, I s → (h.checkModified d s).1 = .ok ())
    (hstart : Unseen d e doc) (hhost : I e.host) (hobserved : observe h c d e = (.ok o, e₀))
    {steps : List (Step σ)} (helsewhere : ∀ f, .elsewhere f ∈ steps → ∀ s, I s → I (f s))
    (g : Grammar) :
    ∃ p, (run h c d e₀ steps).noticed o = some p ∧
      (¬ Raises h c d p g (run h c d e₀ steps) → ∃ e',
        changeGrammar h c d g (run h c d e₀ steps) = (.ok (), e') ∧
        Landed h c d doc.handle p g (run h c d e₀ steps) e') := by
  have hnobody : Listeners [] := fun n hn => absurd hn List.not_mem_nil
  have hchange {e : Editor σ κ} {p : Grammar}
      (hw : Waits h I c d o doc.grammarObservers.callbacks [] doc.handle p e) (g : Grammar) :=
    hw.setGrammar hpath hI hmodified hstart.own hstart.alone hnobody g
  -- between changes of grammar a document just waits, for whatever grammar was noticed last
  have hwaits : ∀ k, ∃ p, Waits h I c d o doc.grammarObservers.callbacks [] doc.handle p
      (run h c d e₀ (steps.take k)) := by
    refine run_induction (K := fun e => ∃ p,
      Waits h I c d o doc.grammarObservers.callbacks [] doc.handle p e)
      (waits_of_observe hpath hI hstart hhost hobserved) fun k step hstep ⟨p, hw⟩ => ?_
    rw [run_take_succ h c d e₀ hstep]
    by_cases hgrammar : ∃ g, step = .setGrammar g
    · obtain ⟨g, rfl⟩ := hgrammar
      exact (hchange hw g).1
    · refine ⟨p, hw.perform hpath hI ?_ fun g hg => hgrammar ⟨g, hg⟩⟩
      rintro f rfl
      exact helsewhere f (List.mem_of_getElem? hstep)
  obtain ⟨p, hw⟩ := hwaits steps.length
  rw [List.take_length] at hw
  refine ⟨p, hw.noticed_eq, fun hfree => ?_⟩
  obtain ⟨hok, hlanded⟩ := (hchange hw g).2 hfree
  exact ⟨_, Prod.ext hok rfl, hlanded⟩

end Steps

/-! ## A script that is no JSON -/

/-- A script is shown in the lenient dialect, edited, and given the lenient grammar of another
language, in which its text cannot be read. -/
def scriptToJson : List (Step Memory) :=
  [.setGrammar ⟨"source.js.lenient", "Lenient JavaScript"⟩, .edit (Text.ofString "2\n"),
    .setGrammar ⟨"source.json.lenient", "Lenient JSON"⟩]

/-- The editor after some of these steps. -/
def afterScriptToJson (k : Nat) : Editor Memory ConverterSet :=
  let c : ControllerSettings := ⟨ControllerSettings.standardScopes, true⟩
  run Memory.host c 0 (observe Memory.host c 0 (Memory.oneScript (Text.ofString "1;\n"))).2
    (scriptToJson.take k)

/-- The last change lands the document, which is given back its lenient grammar. -/
theorem landed_afterScriptToJson :
    ¬ Raises Memory.host ⟨ControllerSettings.standardScopes, true⟩ 0
        ⟨"source.js.lenient", "Lenient JavaScript"⟩ ⟨"source.json.lenient", "Lenient JSON"⟩
        (afterScriptToJson 2) ∧
      ∃ e', changeGrammar Memory.host ⟨ControllerSettings.standardScopes, true⟩ 0
          ⟨"source.json.lenient", "Lenient JSON"⟩ (afterScriptToJson 2) = (.ok (), e') ∧
        Landed Memory.host ⟨ControllerSettings.standardScopes, true⟩ 0 (some (.file 0))
          ⟨"source.js.lenient", "Lenient JavaScript"⟩ ⟨"source.json.lenient", "Lenient JSON"⟩
          (afterScriptToJson 2) e' := by
  let e : Editor Memory ConverterSet := Memory.oneScript (Text.ofString "1;\n")
  let c : ControllerSettings := ⟨ControllerSettings.standardScopes, true⟩
  -- Both languages have converters whenever these are asked for.
  have hraises : ¬ Raises Memory.host c 0 ⟨"source.js.lenient", "Lenient JavaScript"⟩
      ⟨"source.json.lenient", "Lenient JSON"⟩ (afterScriptToJson 2) := by
    have hjs : c.languageOf ⟨"source.js.lenient", "Lenient JavaScript"⟩ = some "js" := by
      decide +kernel
    have hjson : c.languageOf ⟨"source.json.lenient", "Lenient JSON"⟩ = some "json" := by
      decide +kernel
    rintro ⟨l, hl, -, ⟨f, hf, -⟩ | ⟨-, -, l', hl', f, hf, -⟩⟩
    · obtain rfl := Option.some.inj (hjson.symm.trans hl)
      have hthere : (Memory.host.converters "json" (disable Memory.host c 0
          (announce 0 ⟨"source.json.lenient", "Lenient JSON"⟩ (afterScriptToJson 2)).2).2.host).1.isOk
            = true := by decide +kernel
      rw [hf] at hthere
      contradiction
    · obtain rfl := Option.some.inj (hjson.symm.trans hl)
      obtain rfl := Option.some.inj (hjs.symm.trans hl')
      have hthere : (Memory.host.converters "js" (tryOut Memory.host c 0
          ⟨"source.js.lenient", "Lenient JavaScript"⟩ ⟨"source.json.lenient", "Lenient JSON"⟩
          "json" (afterScriptToJson 2)).2.host).1.isOk = true := by decide +kernel
      rw [hf] at hthere
      contradiction
  have hstart : Unseen 0 e (Memory.script (Text.ofString "1;\n")) := by
    refine ⟨rfl, rfl, fun n hn => absurd hn List.not_mem_nil, fun inner hinner => ?_⟩
    obtain rfl := Option.some.inj hinner
    rfl
  have hobserved : observe Memory.host c 0 e = (.ok 0, (observe Memory.host c 0 e).2) :=
    Prod.ext (by rw [observe_apply Memory.host (unobserved_oneScript _)]; rfl) rfl
  have hpath (n : Nat) (m m' : Memory) (hm : Memory.Like e.host m) (hm' : Memory.Like e.host m') :
      Memory.host.files.path n m = "" ↔ Memory.host.files.path n m' = "" := by
    rw [hm.path_eq n, hm'.path_eq n]
  have hmoves : ∀ f, .elsewhere f ∈ scriptToJson.take 2 →
      ∀ m, Memory.Like e.host m → Memory.Like e.host (f m) := by
    intro f hf
    simp [scriptToJson] at hf
  obtain ⟨p, hp, hlanded⟩ := landed_run hpath (Memory.respects_like e.host)
    (fun m => Memory.checkModified_of_like List.not_mem_nil) hstart
    (Memory.Like.refl _) hobserved hmoves ⟨"source.json.lenient", "Lenient JSON"⟩
  have hknown : (afterScriptToJson 2).noticed 0
      = some ⟨"source.js.lenient", "Lenient JavaScript"⟩ := by decide +kernel
  obtain rfl := Option.some.inj (hknown.symm.trans hp)
  exact ⟨hraises, hlanded hraises⟩

/-- After the last change the document is neither lenient under the new grammar nor canonical. -/
theorem not_stands_afterScriptToJson :
    ¬ Stands Memory.host ⟨ControllerSettings.standardScopes, true⟩ 0 (some (.file 0))
      ⟨"source.json.lenient", "Lenient JSON"⟩ (afterScriptToJson 3) := by
  rintro ⟨doc, hdoc, hlenient | hcanonical⟩
  · -- a lenient document would have the new grammar
    have hgrammar : (afterScriptToJson 3).documents[0]?.map Document.grammar
        = some ⟨"source.js.lenient", "Lenient JavaScript"⟩ := by decide +kernel
    rw [show (afterScriptToJson 3).documents[0]? = some doc from hdoc, Option.map_some,
      hlenient.grammar] at hgrammar
    contradiction
  · -- a canonical one would not count as lenient
    have htracked : (afterScriptToJson 3).tracked.lookup 0 = some "js" := by decide +kernel
    rw [hcanonical.free] at htracked
    contradiction

end Dialects.Editor

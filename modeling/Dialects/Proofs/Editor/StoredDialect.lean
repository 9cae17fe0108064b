import Dialects.Proofs.Editor.Run
import Dialects.Proofs.Storage.Memory

/-!
# When files stay canonical

A text that is saved through a handle that is not mapped is stored as it is. So files stay canonical
if every document without a mapped handle has a canonical text (`StoresCanonical`). As long as the
host does not fail, this can be lost in one way only: a change of grammar takes the mapped handle
away from an unmodified document whose text is lenient, and the text is not loaded anew, since the
settings say so (`Strands`). `storesCanonical_iff` says that a run keeps files canonical exactly if
it never does that; in particular it does if texts are loaded anew.
-/

namespace Dialects.Editor

open Dialects.Action

variable {σ κ : Type} {I : σ → Prop} {h : Host σ κ} {c : ControllerSettings}
  {e e' : Editor σ κ} {d n : Nat} {doc doc' : Document κ} {observers : List Observer}
  {base : Handle (Binding κ)}

/-! ## Documents on a file -/

/-- What holds of a document on a file even after failures: its handle leads to the file. -/
structure OnFile (I : σ → Prop) (d : Nat) (observers : List Observer) (n : Nat)
    (e : Editor σ κ) : Prop where
  attached : Attached d observers e
  host : I e.host
  file : ∀ doc, e.Holds d doc → doc.handle.map Handle.base = some n

/-- The file has a path. -/
theorem isBacked_of_file (hpath : ∀ s, I s → h.files.path n s ≠ "")
    (hfile : doc.handle.map Handle.base = some n) (e : Editor σ κ) (hhost : I e.host) :
    isBacked h e doc = true := by
  obtain ⟨handle, hhandle, rfl⟩ := Option.map_eq_some_iff.mp hfile
  simp [isBacked, path?, hhandle, hpath e.host hhost]

/-- A step of the document that keeps its file and its observers leaves it on its file. -/
theorem OnFile.of_shape {t : List (Nat × String)} (h : OnFile I d observers n e)
    (hdoc : e.Holds d doc) (hshape : Shape I e d doc' t e')
    (hsame : doc'.grammarObservers = doc.grammarObservers)
    (hfile : doc'.handle.map Handle.base = some n) : OnFile I d observers n e' := by
  obtain ⟨doc₀, hdoc₀, hobservers⟩ := h.attached.1
  obtain rfl := hdoc.unique hdoc₀
  have hdoc' := hshape.holds hdoc
  refine ⟨⟨⟨doc', hdoc', by rw [hsame, hobservers]⟩, ?_⟩, hshape.host h.host, ?_⟩
  · rw [hshape.observations]
    exact h.attached.2
  · intro doc'' hdoc''
    rw [← hdoc'.unique hdoc'']
    exact hfile

/-- What only the host does leaves a document on its file. -/
theorem OnFile.of_hostOnly (h : OnFile I d observers n e) (hhostOnly : HostOnly I e e') :
    OnFile I d observers n e' := by
  obtain ⟨doc, hdoc, -⟩ := h.attached.1
  exact h.of_shape hdoc ((Shape.refl hdoc).hostOnly hhostOnly) rfl (h.file doc hdoc)

/-- Where a document stands: with its own handle and not counted as lenient, or with a mapped handle
and counted as lenient. -/
def Placed (base : Handle (Binding κ)) (d : Nat) (doc : Document κ) (t : List (Nat × String)) :
    Bool → Prop
  | false => doc.handle = some base ∧ t.lookup d = none
  | true => (∃ binding, doc.handle = some (.mapped base binding)) ∧ ∃ l, t.lookup d = some l

/-- Where a document stands depends on its handle and on whether it counts as lenient. -/
theorem Placed.congr {t t' : List (Nat × String)} {mapped : Bool}
    (hplaced : Placed base d doc t mapped) (hhandle : doc'.handle = doc.handle)
    (ht : t'.lookup d = t.lookup d) : Placed base d doc' t' mapped := by
  cases mapped with
  | false => exact ⟨hhandle.trans hplaced.1, ht.trans hplaced.2⟩
  | true =>
    obtain ⟨⟨binding, hmapped⟩, l, hl⟩ := hplaced
    exact ⟨⟨binding, hhandle.trans hmapped⟩, l, ht.trans hl⟩

/-- A document on a file, and as long as the host has not failed, a property of where it stands,
whether it is modified, and the dialect of its text. -/
structure Calm (I : σ → Prop) (base : Handle (Binding κ)) (d : Nat) (observers : List Observer)
    (P : Bool → Bool → Dialect → Prop) (e : Editor σ κ) : Prop
    extends OnFile I d observers base.base e where
  calm : e.faults = [] → ∀ doc, e.Holds d doc →
    ∃ mapped, Placed base d doc e.tracked mapped ∧ P mapped doc.modified doc.dialect

/-! ## What the transitions keep -/

variable {P : Bool → Bool → Dialect → Prop}

/-- Without its mapping a handle leads to the same file. -/
theorem base_unmapped (handle : Handle (Binding κ)) : handle.unmapped.base = handle.base := by
  cases handle <;> rfl

/-- A handle that is not mapped has no mapping to lose. -/
theorem unmapped_of_not_mapped {handle : Handle (Binding κ)} (h : handle.isMapped = false) :
    handle.unmapped = handle := by
  cases handle with
  | mapped inner b => contradiction
  | file n => rfl
  | forwarding inner => rfl

/-- What only the host does keeps a document calm. -/
theorem Calm.of_hostOnly (hcalm : Calm I base d observers P e) (hhostOnly : HostOnly I e e') :
    Calm I base d observers P e' := by
  refine ⟨hcalm.toOnFile.of_hostOnly hhostOnly, fun hnil doc hdoc => ?_⟩
  rw [Holds, hhostOnly.documents] at hdoc
  rw [hhostOnly.tracked]
  exact hcalm.calm (hhostOnly.toFrame.faults_eq_nil hnil) doc hdoc

/-- Changes of the log, of grammars noted and of notifications make no difference. -/
theorem Calm.congr (hcalm : Calm I base d observers P e) (hdocuments : e'.documents = e.documents)
    (htracked : e'.tracked = e.tracked) (hhost : e'.host = e.host) (hfaults : e'.faults = e.faults)
    (hobservations : ∀ (n : Nat) (o' : Observation), e'.observations[n]? = some o' →
      ∃ o : Observation, e.observations[n]? = some o ∧ o.document = o'.document) :
    Calm I base d observers P e' := by
  -- the document is the same one, and is followed by the same observations
  have hholds (doc : Document κ) : e'.Holds d doc ↔ e.Holds d doc := by
    rw [Holds, Holds, hdocuments]
  obtain ⟨doc, hdoc, hobservers⟩ := hcalm.attached.1
  refine ⟨⟨⟨⟨doc, (hholds doc).mpr hdoc, hobservers⟩, ?_⟩, ?_, ?_⟩, ?_⟩
  · intro n o' hn ho'
    obtain ⟨o, ho, hdocument⟩ := hobservations n o' ho'
    rw [← hdocument]
    exact hcalm.attached.2 n o hn ho
  · rw [hhost]
    exact hcalm.host
  · exact fun doc hdoc => hcalm.file doc ((hholds doc).mp hdoc)
  · intro hnil doc hdoc
    rw [htracked]
    exact hcalm.calm (hfaults ▸ hnil) doc ((hholds doc).mp hdoc)

/-- An operation that replaces the document and leaves its handle alone. -/
theorem Calm.of_done {r : Except Failure Unit × Editor σ κ} {R : Document κ → Prop}
    (hcalm : Calm I base d observers P e) (hdoc : e.Holds d doc) (hdone : Done I e d r R)
    (hR : ∀ doc', R doc' → doc'.grammarObservers = doc.grammarObservers ∧
      doc'.handle = doc.handle ∧ ∀ mapped, Placed base d doc e.tracked mapped →
        P mapped doc.modified doc.dialect → P mapped doc'.modified doc'.dialect) :
    Calm I base d observers P r.2 := by
  obtain ⟨e₁, hfirst, ⟨f, rfl, -⟩ | ⟨doc', rfl, hdoc'⟩⟩ := hdone
  · -- a failure of the host leaves the document alone
    exact hcalm.of_hostOnly hfirst
  obtain ⟨hobservers, hhandle, hP⟩ := hR doc' hdoc'
  have hshape : Shape I e d doc' e.tracked (e₁.put d doc') :=
    ((Shape.refl hdoc).hostOnly hfirst).put doc'
  refine ⟨hcalm.toOnFile.of_shape hdoc hshape hobservers (hhandle ▸ hcalm.file doc hdoc), ?_⟩
  intro hnil doc'' hdoc''
  obtain rfl := (hshape.holds hdoc).unique hdoc''
  obtain ⟨mapped, hplaced, hold⟩ := hcalm.calm (hshape.faults_eq_nil hnil) doc hdoc
  refine ⟨mapped, ?_, hP mapped hplaced hold⟩
  rw [hshape.tracked]
  exact hplaced.congr hhandle rfl

section Transitions

variable (hI : h.Respects I) (hpath : ∀ s, I s → h.files.path base.base s ≠ "")
  (hbase : base.isMapped = false)

include hI hpath hbase

/-- A document that is turned canonical stays calm, if the property allows for the dialect that it
gets. -/
theorem Calm.disable (hP : ∀ m x, P true m x → P false m (if m || c.reload then .canonical else x)) :
    Preserves (Calm I base d observers P) (Editor.disable h c d) := by
  intro e hcalm
  obtain ⟨doc, hdoc, -⟩ := hcalm.attached.1
  have hfile := hcalm.file doc hdoc
  -- a document that does not count as lenient is left alone
  cases htracked : e.tracked.lookup d with
  | none =>
    rw [disable_of_free c htracked]
    exact hcalm
  | some l =>
    obtain ⟨e', f, hr, hshape, hfault, -⟩ | ⟨e', doc', outcome, hr, hshape, hakin, hhandle,
        hmodified, hdialect⟩ :=
      disable_cases hI c hdoc hcalm.host (isBacked_of_file hpath hfile) htracked
    · rw [hr]
      exact ⟨hcalm.toOnFile.of_shape hdoc hshape rfl hfile,
        fun hnil => absurd hnil hfault⟩
    · have hfile' : doc'.handle.map Handle.base = some base.base := by
        rw [hhandle, Option.map_map, ← hfile]
        congr 1
        funext handle
        exact base_unmapped handle
      rw [hr]
      refine ⟨hcalm.toOnFile.of_shape hdoc hshape hakin.grammarObservers hfile',
        fun hnil doc'' hdoc'' => ?_⟩
      obtain rfl := (hshape.holds hdoc).unique hdoc''
      obtain ⟨mapped, hplaced, hold⟩ := hcalm.calm (hshape.faults_eq_nil hnil) doc hdoc
      -- a document that counts as lenient is not placed as a canonical one
      cases mapped with
      | false =>
        rw [hplaced.2] at htracked
        contradiction
      | true =>
        obtain ⟨⟨binding, hmapped⟩, -⟩ := hplaced
        have hflat : ∀ handle, doc.handle = some handle → handle.unmapped.isMapped = false := by
          intro handle hsome
          rw [hmapped] at hsome
          obtain rfl := Option.some.inj hsome
          exact hbase
        refine ⟨false, ⟨?_, ?_⟩, ?_⟩
        · rw [hhandle, hmapped]
          rfl
        · rw [hshape.tracked]
          exact lookup_filter_self d e.tracked
        · rw [hmodified, hdialect hnil hflat, Bool.true_and]
          exact hP doc.modified doc.dialect hold

/-- A document that is turned lenient stays calm, if the property allows for the dialect that it
gets. -/
theorem Calm.turnLenient
    (hP : ∀ m x, P false m x → ∀ b : Bool,
      P true m (if (m && b) || (!m && c.reload) then .lenient else x))
    (previous : Option Grammar) (l : String) (hcalm : Calm I base d observers P e)
    (hfree : e.tracked.lookup d = none) :
    Calm I base d observers P (Editor.turnLenient h c d previous l e).2 := by
  obtain ⟨doc, hdoc, -⟩ := hcalm.attached.1
  have hfile := hcalm.file doc hdoc
  obtain ⟨e', f, hhostOnly, hr, -⟩ | ⟨e', f, hhostOnly, hr⟩ | ⟨e', doc', hr, hshape, hshown⟩ :=
    turnLenient_cases hI c hdoc hcalm.host (isBacked_of_file hpath hfile) hfree previous l
  · -- in the first two cases the document has not been touched
    rw [hr]
    exact hcalm.of_hostOnly hhostOnly
  · rw [hr]
    exact hcalm.of_hostOnly hhostOnly
  · obtain ⟨handle, binding, hhandle, hhandle'⟩ := hshown.mapped rfl
    have hfile' : doc'.handle.map Handle.base = some base.base := by
      rw [hhandle', ← hfile, hhandle]
      rfl
    rw [hr]
    refine ⟨hcalm.toOnFile.of_shape hdoc hshape
      hshown.akin.grammarObservers hfile', fun hnil doc'' hdoc'' => ?_⟩
    obtain rfl := (hshape.holds hdoc).unique hdoc''
    obtain ⟨mapped, hplaced, hold⟩ := hcalm.calm (hshape.faults_eq_nil hnil) doc hdoc
    -- a document that does not count as lenient is not placed as a mapped one
    cases mapped with
    | true =>
      obtain ⟨-, l', hl'⟩ := hplaced
      rw [hfree] at hl'
      contradiction
    | false =>
      obtain ⟨hown, -⟩ := hplaced
      obtain rfl : handle = base := Option.some.inj (hhandle.symm.trans hown)
      refine ⟨true, ⟨⟨binding, hhandle'⟩, l, ?_⟩, ?_⟩
      · rw [hshape.tracked]
        exact lookup_append_self hfree l
      · rw [hshown.modified, hshown.dialect, Bool.true_and]
        exact hP doc.modified doc.dialect hold previous.isSome

/-- A change of grammar keeps a property that both transitions keep. -/
theorem Calm.setGrammar
    (hdisable : ∀ m x, P true m x → P false m (if m || c.reload then .canonical else x))
    (hlenient : ∀ m x, P false m x → ∀ b : Bool,
      P true m (if (m && b) || (!m && c.reload) then .lenient else x))
    (depth : Nat) (g : Grammar) :
    Preserves (Calm I base d observers P) (Editor.setGrammar h c depth d g) := by
  refine Kept.setGrammar ⟨fun e hcalm => hcalm.attached, ?_, ?_, ?_,
    Calm.disable hI hpath hbase hdisable,
    fun previous l e hcalm hfree => Calm.turnLenient hI hpath hbase hlenient previous l hcalm hfree⟩
    depth g
  · intro g e hcalm doc hdoc
    have hshape : Shape I e d { doc with grammar := g } e.tracked
        (e.put d { doc with grammar := g }) := (Shape.refl hdoc).put _
    refine ⟨hcalm.toOnFile.of_shape hdoc hshape rfl (hcalm.file doc hdoc), fun hnil doc' hdoc' => ?_⟩
    obtain rfl := (hshape.holds hdoc).unique hdoc'
    exact hcalm.calm hnil doc hdoc
  · intro name told e hcalm
    exact hcalm.congr rfl rfl rfl rfl fun n o ho => ⟨o, ho, rfl⟩
  · intro n g e hcalm
    refine hcalm.congr rfl rfl rfl rfl fun m o' ho' => ?_
    simp only [noted, List.getElem?_modify] at ho'
    obtain ⟨o, ho, rfl⟩ := Option.map_eq_some_iff.mp ho'
    refine ⟨o, ho, ?_⟩
    split <;> rfl

omit hpath hbase in
/-- A text that is replaced leaves the document calm, if it may be modified. -/
theorem Calm.edit (hP : ∀ m' m x, P m' m x → P m' true x) (t : Text) :
    Preserves (Calm I base d observers P) (setText h d t) := by
  intro e hcalm
  obtain ⟨doc, hdoc, -⟩ := hcalm.attached.1
  refine hcalm.of_done hdoc (setText_cases hI hdoc t) ?_
  rintro doc' rfl
  -- an edit to the same text does not count as one
  by_cases ht : doc.text = t
  · rw [if_pos ht]
    exact ⟨rfl, rfl, fun mapped _ hold => hold⟩
  · rw [if_neg ht]
    exact ⟨rfl, rfl, fun mapped _ hold => hP mapped doc.modified doc.dialect hold⟩

omit hpath hbase in
/-- Saving leaves the document calm, if it may be unmodified. -/
theorem Calm.save (hP : ∀ m' m x, P m' m x → P m' false x) :
    Preserves (Calm I base d observers P) (Editor.save h d) := by
  intro e hcalm
  obtain ⟨doc, hdoc, -⟩ := hcalm.attached.1
  obtain ⟨handle, hhandle, -⟩ := Option.map_eq_some_iff.mp (hcalm.file doc hdoc)
  refine hcalm.of_done hdoc (save_cases hI hdoc hhandle) ?_
  rintro doc' rfl
  exact ⟨rfl, rfl, fun mapped _ hold => hP mapped doc.modified doc.dialect hold⟩

omit hpath in
/-- Loading leaves the document calm, if it may be in the dialect of its handle. -/
theorem Calm.load
    (hP : ∀ m' m x, P m' m x → P m' false (if m' then .lenient else .canonical)) :
    Preserves (Calm I base d observers P) (Editor.load h d) := by
  intro e hcalm
  obtain ⟨doc, hdoc, -⟩ := hcalm.attached.1
  refine hcalm.of_done hdoc (load_cases hI hdoc) ?_
  rintro doc' (⟨hnone, -⟩ | ⟨handle, t, hhandle, rfl⟩)
  · have hfile := hcalm.file doc hdoc
    rw [hnone] at hfile
    contradiction
  refine ⟨rfl, rfl, fun mapped hplaced hold => ?_⟩
  have hdialect : handle.dialect = if mapped then .lenient else .canonical := by
    cases mapped with
    | false =>
      obtain rfl : handle = base := Option.some.inj (hhandle.symm.trans hplaced.1)
      rw [Handle.dialect, hbase]
    | true =>
      obtain ⟨⟨binding, hmapped⟩, -⟩ := hplaced
      obtain rfl : handle = .mapped base binding := Option.some.inj (hhandle.symm.trans hmapped)
      rfl
  rw [hdialect]
  exact hP mapped doc.modified doc.dialect hold

omit hI hpath hbase in
/-- What happens elsewhere leaves the document calm. -/
theorem Calm.elsewhere {f : σ → σ} (hf : ∀ s, I s → I (f s)) (hcalm : Calm I base d observers P e) :
    Calm I base d observers P { e with host := f e.host } :=
  hcalm.of_hostOnly ⟨⟨rfl, rfl, ⟨[], (List.append_nil _).symm⟩, hf e.host⟩, rfl, rfl⟩

omit hpath in
/-- Every step but a change of grammar keeps a property that edits, saves and loads keep. -/
theorem Calm.perform (hedit : ∀ m' m x, P m' m x → P m' true x)
    (hsave : ∀ m' m x, P m' m x → P m' false x)
    (hload : ∀ m' m x, P m' m x → P m' false (if m' then .lenient else .canonical))
    {step : Step σ} (helsewhere : ∀ f, step = .elsewhere f → ∀ s, I s → I (f s))
    (hgrammar : ∀ g, step = .setGrammar g →
      Calm I base d observers P (changeGrammar h c d g e).2)
    (hcalm : Calm I base d observers P e) :
    Calm I base d observers P (step.perform h c d e).2 := by
  cases step with
  | setGrammar g => exact hgrammar g rfl
  | edit t => exact Calm.edit hI hedit t e hcalm
  | load => exact Calm.load hI hbase hload e hcalm
  | save => exact Calm.save hI hsave e hcalm
  | elsewhere f => exact hcalm.elsewhere (helsewhere f rfl)

end Transitions

/-! ## Runs -/

/-- Where a document stands says whether its handle is a mapped one. -/
theorem isMapped_iff {t : List (Nat × String)} {mapped : Bool} (hbase : base.isMapped = false)
    (hplaced : Placed base d doc t mapped) : IsMapped doc ↔ mapped = true := by
  cases mapped with
  | false =>
    refine ⟨fun ⟨handle, hhandle, hmapped⟩ => ?_, fun hfalse => absurd hfalse Bool.false_ne_true⟩
    obtain rfl := Option.some.inj (hplaced.1.symm.trans hhandle)
    rw [hbase] at hmapped
    contradiction
  | true =>
    obtain ⟨⟨binding, hhandle⟩, -⟩ := hplaced
    exact ⟨fun _ => rfl, fun _ => ⟨.mapped base binding, hhandle, rfl⟩⟩

/-- A document without a mapped handle has a canonical text. -/
def StoresCanonical (d : Nat) (e : Editor σ κ) : Prop :=
  ∀ doc, e.Holds d doc → ¬ IsMapped doc → doc.dialect = .canonical

/-- The mapped handle has been taken away from a document whose text is lenient and was left alone,
since it was unmodified and is, by the settings, not loaded anew. -/
structure Strands (c : ControllerSettings) (d : Nat) (e e' : Editor σ κ) : Prop where
  stays : c.reload = false
  before : ∃ doc, e.Holds d doc ∧ IsMapped doc ∧ doc.modified = false ∧ doc.dialect = .lenient
  after : ∃ doc, e'.Holds d doc ∧ ¬ IsMapped doc

/-- A document on a file; nothing is said of its text. -/
abbrev Settled (I : σ → Prop) (base : Handle (Binding κ)) (d : Nat) (observers : List Observer) :
    Editor σ κ → Prop :=
  Calm I base d observers fun _ _ _ => True

/-- A document that is settled is calm, if the property allows for where it stands. -/
theorem Settled.calm_of (hsettled : Settled I base d observers e)
    (hP : ∀ doc mapped, e.Holds d doc → Placed base d doc e.tracked mapped →
      P mapped doc.modified doc.dialect) : Calm I base d observers P e := by
  refine ⟨hsettled.toOnFile, fun hnil doc hdoc => ?_⟩
  obtain ⟨mapped, hplaced, -⟩ := hsettled.calm hnil doc hdoc
  exact ⟨mapped, hplaced, hP doc mapped hdoc hplaced⟩

section Runs

variable (hI : h.Respects I) (hpath : ∀ s, I s → h.files.path base.base s ≠ "")
  (hbase : base.isMapped = false)

include hI hpath hbase

/-- Every step leaves a settled document settled. -/
theorem Settled.perform {step : Step σ}
    (helsewhere : ∀ f, step = .elsewhere f → ∀ s, I s → I (f s))
    (hsettled : Settled I base d observers e) :
    Settled I base d observers (step.perform h c d e).2 :=
  Calm.perform hI hbase (fun _ _ _ _ => trivial) (fun _ _ _ _ => trivial) (fun _ _ _ _ => trivial)
    helsewhere
    (fun g _ => Calm.setGrammar hI hpath hbase (fun _ _ _ => trivial) (fun _ _ _ _ => trivial) _ g
      e hsettled)
    hsettled

/-- Without a lenient text that is left alone, a change of grammar leaves no lenient text behind. -/
theorem storesCanonical_setGrammar {g : Grammar} (hsettled : Settled I base d observers e)
    (hnil' : (changeGrammar h c d g e).2.faults = []) (hstores : StoresCanonical d e) :
    StoresCanonical d (changeGrammar h c d g e).2 ↔ ¬ Strands c d e (changeGrammar h c d g e).2 := by
  constructor
  · -- A lenient text that is unmodified stays as it is through every transition.
    rintro hstores' ⟨hstays, ⟨doc, hdoc, -, hmodified, hdialect⟩, doc', hdoc', hbare⟩
    have hleft : Calm I base d observers (fun _ m x => m = false ∧ x = .lenient) e := by
      refine hsettled.calm_of fun doc₁ mapped hdoc₁ _ => ?_
      obtain rfl := hdoc.unique hdoc₁
      exact ⟨hmodified, hdialect⟩
    have hleft' := Calm.setGrammar hI hpath hbase
      (fun m x ⟨hm, hx⟩ => ⟨hm, by rw [hm, hstays]; exact hx⟩)
      (fun m x ⟨hm, hx⟩ b => ⟨hm, by rw [hm, hstays]; exact hx⟩) maxNesting g e hleft
    obtain ⟨mapped, -, -, hlenient⟩ := hleft'.calm hnil' doc' hdoc'
    rw [hstores' doc' hdoc' hbare] at hlenient
    contradiction
  · -- Any other text is canonical whenever the handle is not a mapped one.
    intro hkept doc' hdoc' hbare
    have hsafe : Calm I base d observers
        (fun mapped m x => x = .canonical ∨ (mapped = true ∧ (m || c.reload) = true)) e := by
      refine hsettled.calm_of fun doc mapped hdoc hplaced => ?_
      have hmapped := isMapped_iff hbase hplaced
      cases hm : mapped with
      | false => exact Or.inl (hstores doc hdoc (by rw [hmapped, hm]; exact Bool.false_ne_true))
      | true =>
        cases hx : doc.dialect with
        | canonical => exact Or.inl rfl
        | lenient =>
          refine Or.inr ⟨rfl, Decidable.byContradiction fun hleft => ?_⟩
          simp only [Bool.or_eq_true, not_or, Bool.not_eq_true] at hleft
          exact hkept ⟨hleft.2, ⟨doc, hdoc, hmapped.mpr hm, hleft.1, hx⟩, doc', hdoc', hbare⟩
    have hsafe' : Calm I base d observers _ (changeGrammar h c d g e).2 :=
      Calm.setGrammar hI hpath hbase ?_ ?_ maxNesting g e hsafe
    · obtain ⟨mapped, hplaced, hcanonical | ⟨hm, -⟩⟩ := hsafe'.calm hnil' doc' hdoc'
      · exact hcanonical
      · exact absurd ((isMapped_iff hbase hplaced).mpr hm) hbare
    · rintro m x (rfl | ⟨-, hm⟩)
      · exact Or.inl (by split <;> rfl)
      · exact Or.inl (by rw [if_pos hm])
    · rintro m x (rfl | ⟨hfalse, -⟩) b
      · cases hm : m || c.reload with
        | true => exact Or.inr ⟨rfl, rfl⟩
        | false =>
          simp only [Bool.or_eq_false_iff] at hm
          exact Or.inl (by simp [hm.1, hm.2])
      · contradiction

omit hpath in
/-- Edits, saves and loads leave no lenient text behind. -/
theorem storesCanonical_perform {step : Step σ}
    (helsewhere : ∀ f, step = .elsewhere f → ∀ s, I s → I (f s))
    (hother : ∀ g, step ≠ .setGrammar g) (hsettled : Settled I base d observers e)
    (hnil' : (step.perform h c d e).2.faults = []) (hstores : StoresCanonical d e) :
    StoresCanonical d (step.perform h c d e).2 := by
  have hgood : Calm I base d observers (fun mapped _ x => mapped = true ∨ x = .canonical) e := by
    refine hsettled.calm_of fun doc mapped hdoc hplaced => ?_
    cases mapped with
    | true => exact Or.inl rfl
    | false =>
      refine Or.inr (hstores doc hdoc fun hmapped => ?_)
      exact absurd ((isMapped_iff hbase hplaced).mp hmapped) Bool.false_ne_true
  have hgood' : Calm I base d observers _ (step.perform h c d e).2 :=
    Calm.perform hI hbase (fun _ _ _ hold => hold) (fun _ _ _ hold => hold)
      (fun m' _ _ _ => by cases m' <;> simp) helsewhere (fun g hg => absurd hg (hother g)) hgood
  intro doc' hdoc' hbare
  obtain ⟨mapped, hplaced, hm | hcanonical⟩ := hgood'.calm hnil' doc' hdoc'
  · exact absurd ((isMapped_iff hbase hplaced).mpr hm) hbare
  · exact hcanonical

end Runs

/-- A document on a file of its own that is canonical throughout and not yet observed. -/
structure CanonicalStart (I : σ → Prop) (c : ControllerSettings) (base : Handle (Binding κ))
    (d : Nat) (e : Editor σ κ) (doc : Document κ) : Prop extends Unobserved c d e doc where
  host : I e.host
  handle : doc.handle = some base
  bare : base.isMapped = false
  dialect : doc.dialect = .canonical

/-- A document that begins to be observed is settled. -/
theorem settled_observing (hstart : CanonicalStart I c base d e doc) :
    Settled I base d (followed doc e.observations.length).grammarObservers.callbacks
      (observing e d doc) := by
  have hdoc' : (observing e d doc).Holds d (followed doc e.observations.length) :=
    hstart.holds.put _
  refine ⟨⟨attached_observing hstart.toUnobserved, hstart.host, fun doc' hdoc => ?_⟩,
    fun _ doc' hdoc => ⟨false, ⟨?_, hstart.free⟩, trivial⟩⟩
  · obtain rfl := hdoc'.unique hdoc
    show doc.handle.map Handle.base = some base.base
    rw [hstart.handle]
    rfl
  · obtain rfl := hdoc'.unique hdoc
    exact hstart.handle

/-- As long as the host does not fail, files stay canonical exactly if no change of grammar takes
the mapped handle away from an unmodified lenient text that is not loaded anew. -/
theorem storesCanonical_iff (hI : h.Respects I)
    (hpath : ∀ s, I s → h.files.path base.base s ≠ "") (hstart : CanonicalStart I c base d e doc)
    {steps : List (Step σ)} (helsewhere : ∀ f, .elsewhere f ∈ steps → ∀ s, I s → I (f s))
    (hnil : ∀ k, (run h c d (observe h c d e).2 (steps.take k)).faults = []) :
    (∀ k, StoresCanonical d (run h c d (observe h c d e).2 (steps.take k))) ↔
      ∀ k g, steps[k]? = some (.setGrammar g) →
        ¬ Strands c d (run h c d (observe h c d e).2 (steps.take k))
          (run h c d (observe h c d e).2 (steps.take (k + 1))) := by
  rw [show (observe h c d e).2 = observing e d doc by rw [observe_apply h hstart.toUnobserved]]
    at hnil ⊢
  have hmoves (k : Nat) (step : Step σ) (hstep : steps[k]? = some step) (f : σ → σ)
      (hf : step = .elsewhere f) : ∀ s, I s → I (f s) := by
    obtain rfl := hf
    exact helsewhere f (List.mem_of_getElem? hstep)
  have hsettled : ∀ k, Settled I base d (followed doc e.observations.length).grammarObservers.callbacks
      (run h c d (observing e d doc) (steps.take k)) := by
    refine run_induction (settled_observing hstart) fun k step hstep hold => ?_
    rw [run_take_succ h c d _ hstep]
    exact Settled.perform hI hpath hstart.bare (hmoves k step hstep) hold
  constructor
  · intro hstores k g hstep
    have hstores' := hstores (k + 1)
    have hnil' := hnil (k + 1)
    rw [run_take_succ h c d _ hstep] at hstores' hnil' ⊢
    exact (storesCanonical_setGrammar hI hpath hstart.bare (hsettled k) hnil' (hstores k)).mp
      hstores'
  · intro hkept
    refine run_induction (fun doc' hdoc' _ => ?_) fun k step hstep hold => ?_
    · obtain rfl := (hstart.holds.put _).unique hdoc'
      exact hstart.dialect
    have hkept' := hkept k
    have hnil' := hnil (k + 1)
    rw [run_take_succ h c d _ hstep] at hkept' hnil' ⊢
    by_cases hgrammar : ∃ g, step = .setGrammar g
    · obtain ⟨g, rfl⟩ := hgrammar
      exact (storesCanonical_setGrammar hI hpath hstart.bare (hsettled k) hnil' hold).mpr
        (hkept' g hstep)
    · exact storesCanonical_perform hI hstart.bare (hmoves k step hstep)
        (fun g hg => hgrammar ⟨g, hg⟩) (hsettled k) hnil' hold

/-! ## A script that is left lenient -/

/-- A script is shown in the lenient dialect, loaded there, shown in the canonical one again and
saved. -/
def shownAndSaved : List (Step Memory) :=
  [.setGrammar ⟨"source.js.lenient", "Lenient JavaScript"⟩, .load,
    .setGrammar ⟨"source.js", "JavaScript"⟩, .save]

/-- The editor after some of these steps. -/
def afterShown (reload : Bool) (k : Nat) : Editor Memory ConverterSet :=
  let c : ControllerSettings := ⟨ControllerSettings.standardScopes, reload⟩
  run Memory.host c 0 (observe Memory.host c 0 (Memory.oneScript (Text.ofString "1;\n"))).2
    (shownAndSaved.take k)

/-- Nothing fails while the document is shown and goes back. -/
theorem faults_afterShown (reload : Bool) (k : Nat) : (afterShown reload k).faults = [] := by
  match k with
  | 0 | 1 | 2 | 3 =>
    cases reload with
    | false => decide +kernel
    | true => decide +kernel
  | k + 4 =>
    -- behind the last step nothing changes any more
    have hall : shownAndSaved.take (k + 4) = shownAndSaved.take 4 :=
      List.take_of_length_le (Nat.le_add_left 4 k)
    rw [afterShown, hall]
    cases reload with
    | false => decide +kernel
    | true => decide +kernel

/-- The script in memory starts canonical, with the standard scopes. -/
theorem canonicalStart_oneScript (c : ControllerSettings) (t : Text)
    (hscopes : c.scopes = ControllerSettings.standardScopes) :
    CanonicalStart (Memory.Like (Memory.oneScript t).host) c (.file 0) 0 (Memory.oneScript t)
      (Memory.script t) := by
  refine ⟨⟨rfl, ?_, rfl, ?_⟩, Memory.Like.refl _, rfl, rfl, rfl⟩
  · rw [ControllerSettings.languageOf, hscopes]
    show ControllerSettings.standardScopes.lookup "source.js" = none
    decide +kernel
  · intro n hn
    exact absurd hn List.not_mem_nil

/-- If texts are loaded anew, the text that is saved in the end is canonical. -/
theorem storesCanonical_afterShown : StoresCanonical 0 (afterShown true 3) := by
  let e : Editor Memory ConverterSet := Memory.oneScript (Text.ofString "1;\n")
  -- a file is never without a path
  have hpath (m : Memory) (hm : Memory.Like e.host m) :
      Memory.host.files.path (Handle.file 0 : Handle (Binding ConverterSet)).base m ≠ "" := by
    rw [hm.path_eq]
    decide
  refine (storesCanonical_iff (Memory.respects_like e.host) hpath
    (canonicalStart_oneScript _ _ rfl) (fun f hf => ?_) (faults_afterShown true)).mpr
    (fun k g _ hstrands => ?_) 3
  · simp [shownAndSaved] at hf
  · exact Bool.false_ne_true hstrands.stays.symm

/-- Otherwise nothing fails either, but the text is lenient when the document has its own handle
again, and is saved as it is. -/
theorem not_storesCanonical_afterShown :
    (∀ k, (afterShown false k).faults = []) ∧ ¬ StoresCanonical 0 (afterShown false 3) ∧
      (afterShown false 4).host.disk = [("a.js", Text.ofString "1\n")] := by
  refine ⟨faults_afterShown false, fun hstores => ?_, by decide +kernel⟩
  have hleft : (afterShown false 3).documents[0]?.map (fun doc => (doc.handle, doc.dialect))
      = some (some (.file 0), .lenient) := by decide +kernel
  obtain ⟨doc, hdoc, hpair⟩ := Option.map_eq_some_iff.mp hleft
  obtain ⟨hhandle, hdialect⟩ := Prod.mk.inj hpair
  have hbare : ¬ IsMapped doc := by
    rintro ⟨handle, hsome, hmapped⟩
    rw [hhandle] at hsome
    obtain rfl := Option.some.inj hsome
    contradiction
  rw [hstores doc hdoc hbare] at hdialect
  contradiction

end Dialects.Editor

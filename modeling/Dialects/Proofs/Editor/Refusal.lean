import Dialects.Proofs.Editor.Agreement
import Dialects.Proofs.Editor.Mapping

/-!
# A document that cannot be shown in the lenient dialect

Turning a document lenient may fail before it has got a mapped handle, after that, and once it
counts as lenient. Each time what was done is undone (`turnLenient_ends`), and then the document is
given its previous grammar back, which is a change that the controller follows if it observes the
document. A canonical grammar is not followed by anything but a note of it
(`setGrammar_of_canonical`), so that in the end the grammar is all that has changed
(`enable_refused`).
-/

namespace Dialects.Editor

variable {σ κ : Type} {h : Host σ κ} {c : ControllerSettings} {e e' : Editor σ κ} {d : Nat}
  {doc : Document κ} {g : Grammar}

/-! ## Setting a canonical grammar -/

/-- The first editor has become the second one by telling observers and taking notes. -/
structure NotesOnly (e e' : Editor σ κ) : Prop where
  documents : e'.documents = e.documents
  tracked : e'.tracked = e.tracked
  documentOf : documentOf e' = documentOf e

theorem NotesOnly.refl (e : Editor σ κ) : NotesOnly e e := ⟨rfl, rfl, rfl⟩

theorem NotesOnly.trans {e₁ e₂ e₃ : Editor σ κ} (h₁ : NotesOnly e₁ e₂) (h₂ : NotesOnly e₂ e₃) :
    NotesOnly e₁ e₃ :=
  ⟨h₂.documents.trans h₁.documents, h₂.tracked.trans h₁.tracked,
    h₂.documentOf.trans h₁.documentOf⟩

/-- A document that does not count as lenient needs nothing to get a canonical grammar. -/
theorem handleGrammar_of_canonical (hfree : e.tracked.lookup d = none)
    (hg : c.languageOf g = none) (revert : Nat → Grammar → Action (Editor σ κ) Unit)
    (previous : Option Grammar) :
    handleGrammar h c revert d g previous e = (.ok .success, e) := by
  rw [handleGrammar_of_none hg, disable_of_free c hfree]

/-- The controller only takes note of a canonical grammar. -/
theorem follow_of_canonical (hdoc : e.Holds d doc) (hfree : e.tracked.lookup d = none)
    (hg : c.languageOf g = none) {n : Nat} (hn : ∀ d', documentOf e n = some d' → d' = d)
    (revert : Nat → Grammar → Action (Editor σ κ) Unit) :
    ∃ e', follow h c revert n g e = (.ok (), e') ∧ NotesOnly e e' := by
  rw [follow, Action.bind_apply, Action.ask_apply]
  simp only []
  cases ho : e.observations[n]? with
  | none => exact ⟨e, rfl, NotesOnly.refl e⟩
  | some o =>
    obtain rfl : o.document = d := hn o.document (by rw [documentOf, ho]; rfl)
    simp only [Action.bind_apply, handleGrammar_of_canonical hfree hg, document_apply hdoc]
    exact ⟨_, rfl, rfl, rfl, documentOf_noted e n doc.grammar⟩

/-- All observers of a document are told of a canonical grammar, and nothing comes of it. -/
theorem forM_follow_of_canonical (hdoc : e.Holds d doc) (hfree : e.tracked.lookup d = none)
    (hg : c.languageOf g = none) (revert : Nat → Grammar → Action (Editor σ κ) Unit)
    {observers : List Observer}
    (hobservers : ∀ n, .controller n ∈ observers → ∀ d', documentOf e n = some d' → d' = d) :
    ∃ e', (observers.forM fun
      | .controller n => follow h c revert n g
      | .listener _ name => mark name (.words [g.scope]) : Action (Editor σ κ) PUnit) e
        = (.ok (), e') ∧ NotesOnly e e' := by
  induction observers generalizing e with
  | nil => exact ⟨e, rfl, NotesOnly.refl e⟩
  | cons x xs ih =>
    obtain ⟨e₁, htold, hnoted⟩ : ∃ e₁, (match x with
        | .controller n => follow h c revert n g
        | .listener _ name => mark name (.words [g.scope]) : Action (Editor σ κ) PUnit) e
          = (.ok (), e₁) ∧ NotesOnly e e₁ := by
      -- a controller finds nothing to do, since the grammar is of no language
      cases x with
      | controller n =>
        exact follow_of_canonical hdoc hfree hg (hobservers n List.mem_cons_self) revert
      | listener id name => exact ⟨_, rfl, rfl, rfl, rfl⟩
    obtain ⟨e₂, hrest, hnoted₂⟩ := ih (e := e₁) (by rw [Holds, hnoted.documents]; exact hdoc)
      (by rw [hnoted.tracked]; exact hfree) fun n hn d' hd' =>
        hobservers n (List.mem_cons_of_mem x hn) d' (hnoted.documentOf ▸ hd')
    refine ⟨e₂, ?_, hnoted.trans hnoted₂⟩
    exact (Action.bind_of_ok htold).trans hrest

/-- A document that does not count as lenient gets a canonical grammar, and nothing else changes,
although the controller follows the change. -/
theorem setGrammar_of_canonical (hdoc : e.Holds d doc) (hfree : e.tracked.lookup d = none)
    (hg : c.languageOf g = none)
    (hobservers : ∀ n, .controller n ∈ doc.grammarObservers.callbacks →
      ∀ d', documentOf e n = some d' → d' = d) (depth : Nat) :
    ∃ e', setGrammar h c (depth + 1) d g e = (.ok (), e') ∧
      NotesOnly (e.put d { doc with grammar := g }) e' := by
  rw [setGrammar, Action.bind_apply, document_apply hdoc]
  simp only []
  -- a grammar that the document has already is not set again
  split
  · next hsame =>
    refine ⟨e, rfl, ?_⟩
    rw [← hsame, show e.put d { doc with grammar := doc.grammar } = e from hdoc.put_self]
    exact NotesOnly.refl e
  · simp only [Action.bind_apply, modify_apply hdoc]
    exact forM_follow_of_canonical (hdoc.put _) hfree hg _ hobservers

/-! ## Refusal -/

/-- If a document is not shown in the lenient dialect after all, whatever has failed and whenever,
it is as it was before, but for its previous grammar, if there was one. So are all other documents,
and no other documents count as lenient. -/
theorem enable_refused {depth : Nat} {previous reverted : Option Grammar} {l : String} {f : Failure}
    (hdoc : e.Holds d doc) (hfree : isLenient e d = false)
    (hobservers : ∀ n, .controller n ∈ doc.grammarObservers.callbacks →
      ∀ d', documentOf e n = some d' → d' = d)
    (hprevious : ∀ g, previous = some g → c.languageOf g = none)
    (hr : enable h c (setGrammar h c depth) d previous l e = (.ok (.failure f reverted), e')) :
    reverted = previous ∧
      e'.documents =
        e.documents.set d { doc with grammar := previous.getD doc.grammar } ∧
      e'.tracked = e.tracked := by
  have hnone : e.tracked.lookup d = none := by
    simpa [isLenient] using hfree
  rw [enable_of_free hnone] at hr
  obtain ⟨e₁, f₁, -, hturned, -⟩ | ⟨e₁, f₁, hhostOnly, hturned⟩ | ⟨e₁, doc₁, e₂, -, hturned, -⟩ :=
    turnLenient_ends h.respects_true c hdoc trivial hnone previous l
  · -- turning it lenient did not come to an end, contrary to what is assumed
    rw [Action.bind_apply, hturned] at hr
    cases (Prod.mk.inj hr).1
  · -- turning it lenient was given up, and the grammar is set back if there was another one
    rw [Action.bind_of_ok hturned] at hr
    have hdoc₁ := hhostOnly.holds hdoc
    cases previous with
    | none =>
      obtain ⟨houtcome, rfl⟩ := Prod.mk.inj hr
      obtain ⟨-, rfl⟩ := Outcome.failure.inj (Except.ok.inj houtcome)
      refine ⟨rfl, ?_, hhostOnly.tracked⟩
      rw [hhostOnly.documents]
      exact congrArg Editor.documents hdoc.put_self.symm
    | some g =>
      replace hr : (setGrammar h c depth d g >>= fun _ => pure (Outcome.failure f₁ (some g))) e₁
          = (.ok (.failure f reverted), e') := hr
      -- without any nesting left, setting the grammar back fails
      cases depth with
      | zero =>
        rw [setGrammar, Action.bind_apply, Action.throw_apply] at hr
        cases (Prod.mk.inj hr).1
      | succ depth =>
        have hobservers₁ (n : Nat) (hn : .controller n ∈ doc.grammarObservers.callbacks) (d' : Nat)
            (hd' : documentOf e₁ n = some d') : d' = d := by
          rw [documentOf, hhostOnly.observations] at hd'
          exact hobservers n hn d' hd'
        obtain ⟨e₂, hset, hnoted⟩ := setGrammar_of_canonical (h := h) hdoc₁
          (by rw [hhostOnly.tracked]; exact hnone) (hprevious g rfl) hobservers₁ depth
        rw [Action.bind_of_ok hset] at hr
        obtain ⟨houtcome, rfl⟩ := Prod.mk.inj hr
        obtain ⟨-, rfl⟩ := Outcome.failure.inj (Except.ok.inj houtcome)
        refine ⟨rfl, ?_, hnoted.tracked.trans hhostOnly.tracked⟩
        rw [hnoted.documents, Editor.put, hhostOnly.documents]
        rfl
  · -- turning it lenient went well, contrary to what is assumed
    rw [Action.bind_of_ok hturned] at hr
    cases Except.ok.inj (Prod.mk.inj hr).1

/-- An editor that follows a document on disk, at the moment when the document has got a lenient
grammar. The file cannot be read. -/
def unreadableLine : Editor Directory ConverterSet :=
  let e := (observe Directory.host lineSettings 0 twoLines).2
  { e with
    documents := e.documents.modify 0 fun doc =>
      { doc with grammar := ⟨"source.lines.lenient", "Lenient lines"⟩ }
    host := { e.host with refused := [.read] } }

/-- The text is read through the mapped handle when the document is refused, and the controller
follows the way back to the grammar before. -/
theorem enable_refused_unreadable :
    isLenient unreadableLine 0 = false ∧ lineSettings.languageOf ⟨"source.lines", "Lines"⟩ = none ∧
      ∃ doc e', unreadableLine.Holds 0 doc ∧
        doc.grammarObservers.callbacks = [.controller 0] ∧ documentOf unreadableLine 0 = some 0 ∧
        enable Directory.host lineSettings (changeGrammar Directory.host lineSettings) 0
            (some ⟨"source.lines", "Lines"⟩) "lines" unreadableLine
          = (.ok (.failure (.storage "Cannot open for read: /p")
              (some ⟨"source.lines", "Lines"⟩)), e') ∧
        e'.documents
          = unreadableLine.documents.set 0 { doc with grammar := ⟨"source.lines", "Lines"⟩ } ∧
        e'.tracked = [] := by
  have hfree : isLenient unreadableLine 0 = false := by decide +kernel
  have hcanonical : lineSettings.languageOf ⟨"source.lines", "Lines"⟩ = none := by decide +kernel
  have hcallbacks : unreadableLine.documents[0]?.map (fun doc => doc.grammarObservers.callbacks)
      = some [.controller 0] := by decide +kernel
  have hdocument : documentOf unreadableLine 0 = some 0 := by decide +kernel
  have hfails : (enable Directory.host lineSettings (changeGrammar Directory.host lineSettings) 0
      (some ⟨"source.lines", "Lines"⟩) "lines" unreadableLine).1.toOption
        = some (.failure (.storage "Cannot open for read: /p")
            (some ⟨"source.lines", "Lines"⟩)) := by decide +kernel
  obtain ⟨doc, hdoc, hobserver⟩ := Option.map_eq_some_iff.mp hcallbacks
  -- the run is evaluated as far as its outcome, and the theorem says what the editor is like
  rcases hr : enable Directory.host lineSettings (changeGrammar Directory.host lineSettings) 0
      (some ⟨"source.lines", "Lines"⟩) "lines" unreadableLine with ⟨f | outcome, e'⟩
  · rw [hr] at hfails
    contradiction
  rw [hr] at hfails
  obtain rfl := Option.some.inj hfails
  obtain ⟨-, hdocuments, htracked⟩ := enable_refused hdoc hfree (fun n hn d hd => by
    rw [hobserver, List.mem_singleton] at hn
    obtain rfl := Observer.controller.inj hn
    exact Option.some.inj (hd.symm.trans hdocument))
    (fun g hg => Option.some.inj hg ▸ hcanonical) hr
  exact ⟨hfree, hcanonical, doc, e', hdoc, hobserver, hdocument, rfl, hdocuments, htracked⟩

end Dialects.Editor

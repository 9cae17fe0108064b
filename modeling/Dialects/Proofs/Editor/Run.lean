import Dialects.Proofs.Action
import Dialects.Proofs.Editor.Transitions

/-!
# Runs of an observed document

A document that the controller observes is edited, loaded and saved, and its grammar is set, in any
order and any number of times; some of this may fail. `Editor.run` gives the editor after a list of
such steps.

A change of grammar may be followed by further changes, nested in each other. What the two
transitions and the bookkeeping keep, a change of grammar keeps at every depth
(`Kept.setGrammar`), so that no proof about runs has to look into the nesting unless it is
about the order of nested changes itself.
-/

namespace Dialects.Editor

open Dialects.Action

variable {σ κ : Type} {Q : Editor σ κ → Prop} {e e' : Editor σ κ} {d : Nat} {doc doc' : Document κ}

/-! ## Steps and runs -/

/-- What may happen to an observed document. -/
inductive Step (σ : Type) where
  /-- Its grammar is set. -/
  | setGrammar (g : Grammar)
  /-- The user replaces its text. -/
  | edit (t : Text)
  /-- It is loaded. -/
  | load
  /-- It is saved. -/
  | save
  /-- Something happens outside the editor, to files or to what will fail. -/
  | elsewhere (f : σ → σ)

/-- Carries out a step. -/
def Step.perform (h : Host σ κ) (c : ControllerSettings) (d : Nat) :
    Step σ → Action (Editor σ κ) Unit
  | .setGrammar g => changeGrammar h c d g
  | .edit t => setText h d t
  | .load => Editor.load h d
  | .save => Editor.save h d
  | .elsewhere f => .change fun e => { e with host := f e.host }

/-- The editor after some steps. A step that fails ends there, and the next one follows. -/
def run (h : Host σ κ) (c : ControllerSettings) (d : Nat) (e : Editor σ κ) (steps : List (Step σ)) :
    Editor σ κ :=
  steps.foldl (fun e step => (step.perform h c d e).2) e

theorem run_nil (h : Host σ κ) (c : ControllerSettings) (d : Nat) (e : Editor σ κ) :
    run h c d e [] = e := rfl

/-- A run of one step more does this step at the end. -/
theorem run_take_succ (h : Host σ κ) (c : ControllerSettings) (d : Nat) (e : Editor σ κ)
    {steps : List (Step σ)} {k : Nat} {step : Step σ} (hstep : steps[k]? = some step) :
    run h c d e (steps.take (k + 1)) = (step.perform h c d (run h c d e (steps.take k))).2 := by
  rw [run, List.take_add_one, hstep, List.foldl_append]
  rfl

/-- What holds at the start and is kept by every step holds throughout. -/
theorem run_induction {h : Host σ κ} {c : ControllerSettings} {steps : List (Step σ)}
    {K : Editor σ κ → Prop} (hstart : K e)
    (hstep : ∀ k step, steps[k]? = some step → K (run h c d e (steps.take k)) →
      K (run h c d e (steps.take (k + 1)))) (k : Nat) : K (run h c d e (steps.take k)) := by
  induction k with
  | zero => exact hstart
  | succ k ih =>
    by_cases hk : k < steps.length
    · exact hstep k steps[k] (List.getElem?_eq_getElem hk) ih
    · -- behind the last step nothing changes any more
      rw [List.take_of_length_le (by omega)] at ih ⊢
      exact ih

/-! ## What changes of grammar keep -/

/-- The document has these observers, and whoever of them is the controller observes no other
document. -/
def Attached (d : Nat) (observers : List Observer) (e : Editor σ κ) : Prop :=
  (∃ doc, e.Holds d doc ∧ doc.grammarObservers.callbacks = observers) ∧
    ∀ n o, .controller n ∈ observers → e.observations[n]? = some o → o.document = d

/-- The editor after an observation has taken note of a grammar. -/
def noted (e : Editor σ κ) (n : Nat) (g : Grammar) : Editor σ κ :=
  { e with observations := e.observations.modify n fun o => { o with previous := some g } }

/-- The parts of a change of grammar keep a property, which says who is told of the change. -/
structure Kept (h : Host σ κ) (c : ControllerSettings) (d : Nat) (observers : List Observer)
    (Q : Editor σ κ → Prop) : Prop where
  attached : ∀ e, Q e → Attached d observers e
  grammar : ∀ g e, Q e → ∀ doc, e.Holds d doc → Q (e.put d { doc with grammar := g })
  mark : ∀ name told, Preserves Q (mark name told)
  noted : ∀ n g e, Q e → Q (e.noted n g)
  disable : Preserves Q (disable h c d)
  lenient : ∀ previous l e, Q e → e.tracked.lookup d = none → Q (turnLenient h c d previous l e).2

namespace Kept

variable {h : Host σ κ} {c : ControllerSettings} {observers : List Observer}
  {revert : Nat → Grammar → Action (Editor σ κ) Unit} (hk : Kept h c d observers Q)

section Revert

variable (hrevert : ∀ g, Preserves Q (revert d g))

include hrevert

/-- Giving up keeps what going back keeps. -/
theorem abortEnable (previous : Option Grammar) (f : Failure) :
    Preserves Q (Editor.abortEnable revert d previous f) := by
  cases previous with
  | none => exact Preserves.pure _
  | some g => exact (hrevert g).bind fun _ => Preserves.pure _

include hk

/-- Turning a document lenient keeps what its parts keep. -/
theorem enable (previous : Option Grammar) (l : String) :
    Preserves Q (Editor.enable h c revert d previous l) := by
  intro e he
  cases hfree : e.tracked.lookup d with
  | some l' =>
    rw [Editor.enable, Action.bind_apply, Action.ask_apply]
    simp only [isLenient, hfree, Option.isSome_some, if_true]
    exact he
  | none =>
    -- only a refusal is followed by something else, which sets the previous grammar
    have hturned := hk.lenient previous l e he hfree
    rw [enable_of_free hfree, Action.bind_apply]
    rcases hr : turnLenient h c d previous l e with ⟨f | r, e'⟩
    · rw [hr] at hturned
      exact hturned
    · rw [hr] at hturned
      cases r with
      | none => exact hturned
      | some f => exact abortEnable hrevert previous f e' hturned

/-- Handling a grammar keeps what its parts keep. -/
theorem handleGrammar (g : Grammar) (previous : Option Grammar) :
    Preserves Q (Editor.handleGrammar h c revert d g previous) := by
  intro e he
  cases hl : c.languageOf g with
  | none =>
    rw [handleGrammar_of_none hl]
    exact hk.disable e he
  | some l =>
    by_cases hsame : e.tracked.lookup d = some l
    · rw [handleGrammar_of_same hl hsame]
      exact he
    · rw [handleGrammar_of_other hl hsame]
      exact hk.disable.bind (fun _ => hk.enable hrevert previous l) e he

/-- Following a grammar keeps what its parts keep. -/
theorem follow {n : Nat} (hn : ∀ e o, Q e → e.observations[n]? = some o → o.document = d)
    (g : Grammar) : Preserves Q (Editor.follow h c revert n g) := by
  intro e he
  rw [Editor.follow, Action.bind_apply, Action.ask_apply]
  simp only []
  cases ho : e.observations[n]? with
  | none => exact he
  | some o =>
    -- the observation is one of this document, and the grammar noted is that of the same document
    obtain rfl := hn e o he ho
    refine (hk.handleGrammar hrevert g o.previous).bind (fun _ => ?_) e he
    intro e' he'
    obtain ⟨doc, hdoc, -⟩ := (hk.attached e' he').1
    rw [Action.bind_apply, document_apply hdoc]
    exact hk.noted n doc.grammar e' he'

end Revert

include hk

/-- A change of grammar keeps what its parts keep, however deep it is nested. -/
theorem setGrammar (depth : Nat) (g : Grammar) :
    Preserves Q (Editor.setGrammar h c depth d g) := by
  induction depth generalizing g with
  | zero => exact Preserves.throw _
  | succ depth ih =>
    intro e he
    obtain ⟨doc, hdoc, hobservers⟩ := (hk.attached e he).1
    rw [Editor.setGrammar, Action.bind_apply, document_apply hdoc]
    simp only []
    split
    · exact he
    · rw [Action.bind_apply, modify_apply hdoc, hobservers]
      refine Preserves.forM (fun x hx => ?_) _ (hk.grammar g e he doc hdoc)
      cases x with
      | controller n =>
        -- whoever is told sets grammars at a smaller depth
        exact hk.follow ih (fun e' o he' ho => (hk.attached e' he').2 n o hx ho) g
      | listener id name => exact hk.mark name _

end Kept

/-! ## The start of a run -/

/-- No controller follows the document yet, and its grammar is a canonical one. -/
structure Unobserved (c : ControllerSettings) (d : Nat) (e : Editor σ κ) (doc : Document κ) :
    Prop where
  holds : e.Holds d doc
  canonical : c.languageOf doc.grammar = none
  free : e.tracked.lookup d = none
  alone : ∀ n, .controller n ∉ doc.grammarObservers.callbacks

/-- A document that the controller follows through the observation of a number. -/
def followed (doc : Document κ) (n : Nat) : Document κ :=
  { doc with
    grammarObservers := doc.grammarObservers.subscribe (.controller n)
    endObservers := doc.endObservers.subscribe (.controller n) }

/-- An observation of the document has been entered. -/
def entered (e : Editor σ κ) (d : Nat) : Editor σ κ :=
  { e with observations := e.observations ++ [⟨d, none⟩] }

/-- To observe a document is to enter the observation, to handle the present grammar and to follow
the document from then on. -/
theorem observe_eq (h : Host σ κ) (c : ControllerSettings) (hdoc : e.Holds d doc) :
    observe h c d e = (follow h c (changeGrammar h c) e.observations.length doc.grammar
      >>= fun _ => modify d (followed · e.observations.length) >>= fun _ =>
        pure e.observations.length) (entered e d) := by
  have hdoc₁ : (entered e d).Holds d doc := hdoc
  rw [observe, Action.bind_apply, Action.ask_apply]
  simp only [Action.bind_apply, Action.change_apply]
  rw [show { e with observations := e.observations ++ [⟨d, none⟩] } = entered e d from rfl,
    document_apply hdoc₁]
  rfl

/-- The editor that observes one more document. -/
def observing (e : Editor σ κ) (d : Nat) (doc : Document κ) : Editor σ κ :=
  { e with
    documents := e.documents.set d (followed doc e.observations.length)
    observations := e.observations ++ [⟨d, some doc.grammar⟩] }

/-- To observe a document with a canonical grammar is only to take note of that grammar. -/
theorem observe_apply (h : Host σ κ) {c : ControllerSettings} (hdoc : Unobserved c d e doc) :
    observe h c d e = (.ok e.observations.length, observing e d doc) := by
  have hdoc₁ : (entered e d).Holds d doc := hdoc.holds
  have hlast : (entered e d).observations[e.observations.length]? = some ⟨d, none⟩ :=
    List.getElem?_concat_length
  -- no language is known for the grammar, and the document is not lenient, so that nothing is done
  have hhandle (revert : Nat → Grammar → Action (Editor σ κ) Unit) :
      handleGrammar h c revert d doc.grammar none (entered e d) = (.ok .success, entered e d) := by
    have hfree : (entered e d).tracked.lookup d = none := hdoc.free
    rw [handleGrammar_of_none hdoc.canonical, disable_of_free c hfree]
  have hnoted : (entered e d).observations.modify e.observations.length
      (fun o => { o with previous := some doc.grammar })
      = e.observations ++ [⟨d, some doc.grammar⟩] := by
    rw [entered, List.modify_eq_take_drop, List.take_left, List.drop_left]
    rfl
  rw [observe_eq h c hdoc.holds, Action.bind_apply, follow, Action.bind_apply, Action.ask_apply]
  simp only [hlast, Action.bind_apply, hhandle, document_apply hdoc₁, Action.change_apply, hnoted]
  have hdoc₂ : Holds { entered e d with observations := e.observations ++ [⟨d, some doc.grammar⟩] } d
      doc := hdoc₁
  rw [modify_apply hdoc₂]
  rfl

/-- Once observed, the document is followed through its own observation alone. -/
theorem attached_observing {c : ControllerSettings} (hdoc : Unobserved c d e doc) :
    Attached d (followed doc e.observations.length).grammarObservers.callbacks
      (observing e d doc) := by
  refine ⟨⟨followed doc e.observations.length, hdoc.holds.put _, rfl⟩, ?_⟩
  intro n o hn ho
  -- the only controller among the followers is the new observation
  rw [followed, Emitter.callbacks_subscribe, List.mem_append, List.mem_singleton] at hn
  rcases hn with hn | hn
  · exact absurd hn (hdoc.alone n)
  · obtain rfl := Observer.controller.inj hn
    rw [observing, List.getElem?_concat_length] at ho
    obtain rfl := Option.some.inj ho
    rfl

end Dialects.Editor

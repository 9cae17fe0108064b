import Dialects.Proofs.Editor.Agreement
import Dialects.Proofs.Tracing

/-!
# Changes of grammar settle

Setting a grammar tells the controller, which may turn the document canonical and lenient again, and
which gives the document its previous grammar back if that is refused. This is a change of grammar
of its own, which the controller follows. It goes no further: the grammar that is given back is the
one that the observation has taken note of, and it is noted only after the whole change has been
handled, so that whoever refuses it gives back the grammar that the document has already.

To say how much is done in a change of grammar, the controller is run once more with a list of its
moves beside the editor. Without the list it is the same controller (`Traced.erases_setGrammar`).

## Main results

* `Traced.settles_change`: which moves a change of grammar consists of.
* `changeGrammar_settles`: how many they are, and that the bound on the depth is never reached.
-/

namespace Dialects.Editor

open Dialects.Action

variable {σ κ : Type}

/-! ## Moves -/

/-- What is done in a change of grammar. -/
inductive Move where
  /-- A document gets another grammar. -/
  | change (d : Nat) (g : Grammar)
  /-- A lenient document is turned canonical. -/
  | disable (d : Nat)
  /-- It is tried to turn a document lenient. -/
  | enable (d : Nat) (language : String)
  deriving DecidableEq, Repr

namespace Move

/-- Whether a document gets another grammar. -/
def isChange : Move → Bool
  | .change .. => true
  | _ => false

/-- Whether a lenient document is turned canonical. -/
def isDisable : Move → Bool
  | .disable _ => true
  | _ => false

/-- Whether it is tried to turn a document lenient. -/
def isEnable : Move → Bool
  | .enable .. => true
  | _ => false

end Move

/-- An editor and the moves that have been made in it. -/
abbrev Traced (σ κ : Type) := Editor σ κ × List Move

namespace Traced

/-- An action without moves. -/
def quietly {α : Type} (a : Action (Editor σ κ) α) : Action (Traced σ κ) α :=
  a.on Prod.fst fun e s => (e, s.2)

/-- Makes a move. -/
def move (m : Move) : Action (Traced σ κ) Unit := .change fun s => (s.1, s.2 ++ [m])

/-- Gives a document its previous grammar back, if there was one. -/
def abortEnable (revert : Nat → Grammar → Action (Traced σ κ) Unit) (d : Nat)
    (previous : Option Grammar) (f : Failure) : Action (Traced σ κ) Outcome := do
  match previous with
  | some g => revert d g
  | none => pure ()
  return .failure f previous

/-- Turns a document lenient, or gives it its previous grammar back. -/
def enable (h : Host σ κ) (c : ControllerSettings)
    (revert : Nat → Grammar → Action (Traced σ κ) Unit) (d : Nat) (previous : Option Grammar)
    (language : String) : Action (Traced σ κ) Outcome := do
  move (.enable d language)
  if ← quietly (.ask (isLenient · d)) then return .success
  match ← quietly (turnLenient h c d previous language) with
  | none => return .success
  | some f => abortEnable revert d previous f

/-- Follows a change of a document's grammar. -/
def handleGrammar (h : Host σ κ) (c : ControllerSettings)
    (revert : Nat → Grammar → Action (Traced σ κ) Unit) (d : Nat) (g : Grammar)
    (previous : Option Grammar) : Action (Traced σ κ) Outcome := do
  let language := c.languageOf g
  match (← quietly (.ask Editor.tracked)).lookup d with
  | some current =>
    if language = some current then return .success
    move (.disable d)
    let outcome ← quietly (Editor.disable h c d)
    match language with
    | none => return outcome
    | some l => enable h c revert d previous l
  | none =>
    match language with
    | none => return .success
    | some l => enable h c revert d previous l

/-- Follows a change of grammar through an observation. -/
def follow (h : Host σ κ) (c : ControllerSettings)
    (revert : Nat → Grammar → Action (Traced σ κ) Unit) (observation : Nat) (g : Grammar) :
    Action (Traced σ κ) Unit := do
  match (← quietly (.ask Editor.observations))[observation]? with
  | none => pure ()
  | some o =>
    let _ ← handleGrammar h c revert o.document g o.previous
    quietly (note observation o.document)

/-- Sets a document's grammar and tells the observers, unless the grammar is the same. -/
def setGrammar (h : Host σ κ) (c : ControllerSettings) : (depth : Nat) → (d : Nat) → Grammar →
    Action (Traced σ κ) Unit
  | 0, _, _ => throw .nestedTooDeep
  | depth + 1, d, g => do
    let doc ← quietly (document d)
    if doc.grammar = g then pure ()
    else
      move (.change d g)
      quietly (modify d fun doc => { doc with grammar := g })
      doc.grammarObservers.callbacks.forM fun
        | .controller o => follow h c (setGrammar h c depth) o g
        | .listener _ name => quietly (mark name (.words [g.scope]))

/-! ## The moves make no difference -/

/-- Without its moves the first action is the second one. -/
def Erases {α : Type} (a : Action (Traced σ κ) α) (b : Action (Editor σ κ) α) : Prop :=
  ∀ s, ((a s).1, (a s).2.1) = b s.1

section Erases

variable {α β : Type} {a : Action (Traced σ κ) α} {b : Action (Editor σ κ) α}
  {k : α → Action (Traced σ κ) β} {k' : α → Action (Editor σ κ) β}

theorem erases_quietly (b : Action (Editor σ κ) α) : Erases (quietly b) b := fun _ => rfl

theorem erases_pure (x : α) : Erases (pure x : Action (Traced σ κ) α) (pure x) := fun _ => rfl

/-- What erases to something step by step erases to it as a whole. -/
theorem Erases.bind (ha : Erases a b) (hk : ∀ x, Erases (k x) (k' x)) :
    Erases (a >>= k) (b >>= k') := Dialects.Traced.Erases.bind ha hk

/-- A move changes nothing in the editor. -/
theorem Erases.move {m : Move} (ha : Erases a b) : Erases (Traced.move m >>= fun _ => a) b :=
  fun s => ha (s.1, s.2 ++ [m])

/-- Doing something for every item of a list erases to doing so without moves. -/
theorem Erases.forM {γ : Type} {k : γ → Action (Traced σ κ) PUnit}
    {k' : γ → Action (Editor σ κ) PUnit} (hk : ∀ x, Erases (k x) (k' x)) (xs : List γ) :
    Erases (xs.forM k) (xs.forM k') := Dialects.Traced.Erases.forM hk xs

end Erases

section Controller

variable {h : Host σ κ} {c : ControllerSettings}
  {revert : Nat → Grammar → Action (Traced σ κ) Unit}
  {revert' : Nat → Grammar → Action (Editor σ κ) Unit}

/-- Without its moves giving up is what it is in the editor. -/
theorem erases_abortEnable (hrevert : ∀ d g, Erases (revert d g) (revert' d g)) (d : Nat)
    (previous : Option Grammar) (f : Failure) :
    Erases (abortEnable revert d previous f) (Editor.abortEnable revert' d previous f) := by
  cases previous with
  | none => exact erases_pure _
  | some g => exact (hrevert d g).bind fun _ => erases_pure _

/-- Without its moves turning a document lenient is what it is in the editor. -/
theorem erases_enable (hrevert : ∀ d g, Erases (revert d g) (revert' d g)) (d : Nat)
    (previous : Option Grammar) (l : String) :
    Erases (enable h c revert d previous l) (Editor.enable h c revert' d previous l) := by
  unfold enable Editor.enable
  refine Erases.move ((erases_quietly _).bind fun lenient => ?_)
  cases lenient with
  | true => exact erases_pure _
  | false =>
    refine (erases_quietly _).bind fun failure => ?_
    cases failure with
    | none => exact erases_pure _
    | some f => exact erases_abortEnable hrevert d previous f

/-- Without its moves handling a grammar is what it is in the editor. -/
theorem erases_handleGrammar (hrevert : ∀ d g, Erases (revert d g) (revert' d g)) (d : Nat)
    (g : Grammar) (previous : Option Grammar) :
    Erases (handleGrammar h c revert d g previous)
      (Editor.handleGrammar h c revert' d g previous) := by
  refine (erases_quietly _).bind fun tracked => ?_
  cases tracked.lookup d with
  | some current =>
    simp only []
    -- a document that is lenient in the language already makes no move
    split
    · exact erases_pure _
    · refine Erases.move ((erases_quietly _).bind fun outcome => ?_)
      cases c.languageOf g with
      | none => exact erases_pure _
      | some l => exact erases_enable hrevert d previous l
  | none =>
    cases c.languageOf g with
    | none => exact erases_pure _
    | some l => exact erases_enable hrevert d previous l

/-- Without its moves following a grammar is what it is in the editor. -/
theorem erases_follow (hrevert : ∀ d g, Erases (revert d g) (revert' d g)) (n : Nat) (g : Grammar) :
    Erases (follow h c revert n g) (Editor.follow h c revert' n g) := by
  refine (erases_quietly _).bind fun observations => ?_
  cases observations[n]? with
  | none => exact erases_pure _
  | some o =>
    exact (erases_handleGrammar hrevert o.document g o.previous).bind fun _ => erases_quietly _

/-- Without its moves this is the controller. -/
theorem erases_setGrammar (h : Host σ κ) (c : ControllerSettings) (depth d : Nat) (g : Grammar) :
    Erases (setGrammar h c depth d g) (Editor.setGrammar h c depth d g) := by
  -- the induction is on the depth, which each way back uses up
  induction depth generalizing d g with
  | zero => exact fun _ => rfl
  | succ depth ih =>
    refine (erases_quietly _).bind fun doc => ?_
    split
    · exact erases_pure _
    · refine Erases.move ((erases_quietly _).bind fun _ => Erases.forM (fun x => ?_) _)
      cases x with
      | controller o => exact erases_follow ih o g
      | listener id name => exact erases_quietly _

end Controller

/-! ## How an action ends -/

section Ends

variable {α β : Type} {h : Host σ κ} {c : ControllerSettings} {e e₁ : Editor σ κ} {d o : Nat}
  {doc : Document κ} {before after : List Observer} {p : Option Grammar} {g : Grammar}
  {a : Nat → Action (Traced σ κ) α} {new new' : List Move}

@[simp]
theorem quietly_apply (b : Action (Editor σ κ) α) (e : Editor σ κ) (moves : List Move) :
    quietly b (e, moves) = ((b e).1, ((b e).2, moves)) := rfl

@[simp]
theorem move_apply (m : Move) (e : Editor σ κ) (moves : List Move) :
    move m (e, moves) = (.ok (), (e, moves ++ [m])) := rfl

/-- The action makes these moves and leaves this editor, whatever its bound on the depth is. -/
def Ends (a : Nat → Action (Traced σ κ) α) (e : Editor σ κ) (r : Except Failure α)
    (e' : Editor σ κ) (new : List Move) : Prop :=
  ∀ n moves, a n (e, moves) = (r, (e', moves ++ new))

/-- The action makes these moves, whatever its bound on the depth is. The document is there
afterwards, and the action fails only if the host is erratic. -/
def Settles (h : Host σ κ) (d : Nat) (a : Nat → Action (Traced σ κ) α) (e : Editor σ κ)
    (new : List Move) : Prop :=
  ∃ r e', Ends a e r e' new ∧ (∃ doc, e'.Holds d doc) ∧
    ∀ f, r = .error f → Erratic h (fun _ => True) d

namespace Settles

variable {b : Nat → Action (Traced σ κ) α} {e' : Editor σ κ}

/-- An action that succeeds settles the document if that is still there. -/
theorem ok {x : α} (ha : ∀ n moves, a n (e, moves) = (.ok x, (e', moves ++ new)))
    (hdoc : e'.Holds d doc) : Settles h d a e new :=
  ⟨.ok x, e', ha, ⟨doc, hdoc⟩, fun _ hf => by contradiction⟩

/-- An action that fails settles the document if the host is erratic. -/
theorem error {f : Failure} (ha : ∀ n moves, a n (e, moves) = (.error f, (e', moves ++ new)))
    (hdoc : e'.Holds d doc) (herratic : Erratic h (fun _ => True) d) : Settles h d a e new :=
  ⟨.error f, e', ha, ⟨doc, hdoc⟩, fun _ _ => herratic⟩

/-- What goes on as a settling action does settles the document. -/
theorem congr (ha : ∀ n moves, a n (e, moves) = b n (e', moves)) (hb : Settles h d b e' new) :
    Settles h d a e new := by
  obtain ⟨r, e₂, hends, hdoc, hfails⟩ := hb
  exact ⟨r, e₂, fun n moves => (ha n moves).trans (hends n moves), hdoc, hfails⟩

/-- A move comes before those of what follows it. -/
theorem move {m : Move} (ha : ∀ n moves, a n (e, moves) = b n (e', moves ++ [m]))
    (hb : Settles h d b e' new) : Settles h d a e (m :: new) := by
  obtain ⟨r, e₂, hends, hdoc, hfails⟩ := hb
  refine ⟨r, e₂, fun n moves => ?_, hdoc, hfails⟩
  have hthere := hends n (moves ++ [m])
  rw [List.append_assoc, List.singleton_append] at hthere
  exact (ha n moves).trans hthere

/-- What is done to the value of an action makes no difference. -/
theorem bind_pure {β : Type} (ha : Settles h d a e new) (k : α → β) :
    Settles h d (fun n => a n >>= fun x => pure (k x)) e new := by
  obtain ⟨r, e₂, hends, hdoc, hfails⟩ := ha
  cases r with
  | error f =>
    refine ⟨.error f, e₂, fun n moves => ?_, hdoc, fun f' _ => hfails f rfl⟩
    show (a n >>= fun x => pure (k x)) (e, moves) = _
    rw [Action.bind_apply, hends n moves]
  | ok x =>
    refine ⟨.ok (k x), e₂, fun n moves => ?_, hdoc, fun f' hf' => by contradiction⟩
    exact Action.bind_of_ok (hends n moves)

end Settles

/-- The listeners are told one after the other, without a move. -/
theorem forM_listeners (g : Grammar) {k : Observer → Action (Traced σ κ) PUnit}
    (hk : ∀ id name, k (.listener id name) = quietly (mark name (.words [g.scope])))
    {xs : List Observer} (hxs : Listeners xs) (rest : List Observer) (e : Editor σ κ)
    (moves : List Move) : (xs ++ rest).forM k (e, moves) = rest.forM k (told g xs e, moves) := by
  induction xs generalizing e with
  | nil =>
    have hnothing : told g [] e = e := by simp [told]
    rw [hnothing]
    rfl
  | cons x xs ih =>
    cases x with
    | controller n => exact absurd List.mem_cons_self (hxs n)
    | listener id name =>
      have hlisteners : Listeners xs := fun n hn => hxs n (List.mem_cons_of_mem _ hn)
      show (k (.listener id name) >>= fun _ => (xs ++ rest).forM k) (e, moves) = _
      rw [Action.bind_apply, hk, quietly_apply, mark, Action.change_apply]
      simp only [ih hlisteners]
      simp [told]

/-- The listeners in front of the controller hear of a new grammar, then the controller does, and
then the other ones. -/
theorem setGrammar_apply (hw : Watched d o before after p doc e) (hbefore : Listeners before)
    (hne : doc.grammar ≠ g) (depth : Nat) (moves : List Move) :
    setGrammar h c (depth + 1) d g (e, moves) =
      (follow h c (setGrammar h c depth) o g >>= fun _ => after.forM fun
        | .controller o => follow h c (setGrammar h c depth) o g
        | .listener _ name => quietly (mark name (.words [g.scope])))
        (announced d g before doc e, moves ++ [Move.change d g]) := by
  rw [setGrammar, Action.bind_apply, quietly_apply, document_apply hw.holds]
  simp only [if_neg hne, Action.bind_apply, move_apply, quietly_apply, modify_apply hw.holds,
    hw.followers]
  rw [forM_listeners g (fun _ _ => rfl) hbefore, ← Action.bind_apply]
  rfl

/-- The controller hears of it through the observation. -/
theorem follow_apply {revert : Nat → Grammar → Action (Traced σ κ) Unit}
    (hw : Watched d o before after p doc e) (moves : List Move) :
    follow h c revert o g (e, moves) =
      (handleGrammar h c revert d g p >>= fun _ => quietly (note o d)) (e, moves) := by
  rw [follow, Action.bind_apply, quietly_apply, Action.ask_apply]
  simp only [hw.known]

/-- A change of grammar settles if the controller's handling of it does. -/
theorem settles_setGrammar (hw : Watched d o before after p doc e) (hbefore : Listeners before)
    (hafter : Listeners after) (hne : doc.grammar ≠ g) {m : Nat → Nat}
    (hhandled : Settles h d (fun n => handleGrammar h c (setGrammar h c (m n)) d g p)
      (announced d g before doc e) new) :
    Settles h d (fun n => setGrammar h c (m n + 1) d g) e (.change d g :: new) := by
  obtain ⟨r, e₂, hends, ⟨doc₂, hdoc₂⟩, hfails⟩ := hhandled
  have hmoves (moves : List Move) :
      moves ++ [Move.change d g] ++ new = moves ++ .change d g :: new := by
    rw [List.append_assoc, List.singleton_append]
  have hhandle (n : Nat) (moves : List Move) :
      handleGrammar h c (setGrammar h c (m n)) d g p
        (announced d g before doc e, moves ++ [Move.change d g]) =
          (r, (e₂, moves ++ .change d g :: new)) := by
    rw [← hmoves]
    exact hends n _
  -- what the controller's handling ends in decides about the rest of the observers
  cases r with
  | error f =>
    refine .error (f := f) (fun n moves => ?_) hdoc₂ (hfails f rfl)
    rw [setGrammar_apply hw hbefore hne, Action.bind_apply, follow_apply (hw.announced g),
      Action.bind_apply, hhandle]
  | ok outcome =>
    have hkept : (told g after (e₂.noted o doc₂.grammar)).Holds d doc₂ := hdoc₂
    refine .ok (x := ()) (fun n moves => ?_) hkept
    rw [setGrammar_apply hw hbefore hne, Action.bind_apply, follow_apply (hw.announced g),
      Action.bind_apply, hhandle]
    simp only [quietly_apply, note_apply hdoc₂]
    -- the listeners behind the observation are told last
    have hall := forM_listeners g (k := fun
      | .controller o => follow h c (setGrammar h c (m n)) o g
      | .listener _ name => quietly (mark name (.words [g.scope]))) (fun _ _ => rfl) hafter []
      (e₂.noted o doc₂.grammar) (moves ++ .change d g :: new)
    rw [List.append_nil] at hall
    exact hall

/-- To give a document the grammar that it has is no change. -/
theorem settles_same (hdoc : e.Holds d doc) (m : Nat → Nat) :
    Settles h d (fun n => setGrammar h c (m n + 1) d doc.grammar) e [] := by
  refine .ok (x := ()) (fun n moves => ?_) hdoc
  rw [setGrammar, Action.bind_apply, quietly_apply, document_apply hdoc, List.append_nil]
  simp only [if_true]
  rfl

/-! ## The controller's part -/

/-- Turning a document lenient that does not count as such is a move, and then the attempt. -/
theorem enable_apply {revert : Nat → Grammar → Action (Traced σ κ) Unit} {l : String}
    (hfree : e.tracked.lookup d = none) (moves : List Move) :
    enable h c revert d p l (e, moves) = (quietly (turnLenient h c d p l) >>= fun
      | none => pure .success
      | some f => abortEnable revert d p f) (e, moves ++ [Move.enable d l]) := by
  have hfalse : ¬ isLenient e d = true := by simp [isLenient, hfree]
  rw [enable, Action.bind_apply, move_apply]
  exact congrFun (if_neg hfalse) _

/-- The controller tries once to turn a canonical document lenient. If that is refused, what follows
is the way back to the grammar that was noted last. -/
theorem settles_enable (hw : Watched d o before after p doc e)
    (hfree : e.tracked.lookup d = none) (l : String)
    {revert : Nat → Nat → Grammar → Action (Traced σ κ) Unit} {R : List Move → Prop}
    (hrevert : ∀ q e', p = some q → Watched d o before after p doc e' →
      e'.tracked.lookup d = none → ∃ new, Settles h d (fun n => revert n d q) e' new ∧ R new) :
    ∃ new, Settles h d (fun n => enable h c (revert n) d p l) e (.enable d l :: new) ∧
      (new = [] ∨ R new) := by
  obtain ⟨e', f, hhostOnly, hr, hbreaks⟩ | ⟨e', f, hhostOnly, hr⟩ |
      ⟨e', doc', e₁, -, hr, hshape, -⟩ :=
    turnLenient_ends h.respects_true c hw.holds trivial hfree p l
  · -- nothing is given back where the attempt itself breaks off
    have herratic : Erratic h (fun _ => True) d := by
      obtain hescapes | ⟨s, f', hs, herror⟩ := hbreaks
      · exact hescapes.erratic trivial
      · exact ⟨s, f', hs, .inr herror⟩
    refine ⟨[], .error (f := f) (fun n moves => ?_) (hhostOnly.holds hw.holds) herratic,
      Or.inl rfl⟩
    rw [enable_apply hfree, Action.bind_apply, quietly_apply, hr]
  · -- a refusal leaves the document as it was, so that the way back starts from the same place
    have hw' := hw.hostOnly hhostOnly
    have habort (n : Nat) (moves : List Move) : enable h c (revert n) d p l (e, moves)
        = abortEnable (revert n) d p f (e', moves ++ [Move.enable d l]) := by
      rw [enable_apply hfree, Action.bind_apply, quietly_apply, hr]
    cases hp : p with
    | none =>
      subst hp
      exact ⟨[], .move habort (.ok (fun n moves => by rw [List.append_nil]; rfl) hw'.holds),
        Or.inl rfl⟩
    | some q =>
      obtain ⟨new, hback, hnew⟩ := hrevert q e' hp hw' (hhostOnly.tracked ▸ hfree)
      subst hp
      exact ⟨new, .move habort ((hback.bind_pure fun _ => Outcome.failure f (some q)).congr
        fun _ _ => rfl), Or.inr hnew⟩
  · refine ⟨[], .ok (x := .success) (fun n moves => ?_) (hshape.holds hw.holds), Or.inl rfl⟩
    rw [enable_apply hfree, Action.bind_apply, quietly_apply, hr]
    rfl

/-- A change of grammar is handled with at most one attempt to turn a canonical document lenient,
the way back apart. -/
theorem settles_handleGrammar_of_free (hw : Watched d o before after p doc e)
    (hfree : e.tracked.lookup d = none) (g : Grammar)
    (revert : Nat → Nat → Grammar → Action (Traced σ κ) Unit) {R : List Move → Prop}
    (hrevert : ∀ q e', p = some q → Watched d o before after p doc e' →
      e'.tracked.lookup d = none → ∃ new, Settles h d (fun n => revert n d q) e' new ∧ R new) :
    ∃ on, Settles h d (fun n => handleGrammar h c (revert n) d g p) e on ∧
      (on = [] ∨ ∃ l new, on = .enable d l :: new ∧ (new = [] ∨ R new)) := by
  have hhandle (n : Nat) (moves : List Move) :
      handleGrammar h c (revert n) d g p (e, moves) = (match c.languageOf g with
        | none => pure Outcome.success
        | some l => enable h c (revert n) d p l) (e, moves) := by
    rw [handleGrammar, Action.bind_apply, quietly_apply, Action.ask_apply]
    simp only [hfree]
  -- without a language there is nothing to turn the document into
  cases hl : c.languageOf g with
  | none =>
    refine ⟨[], .ok (x := .success) (fun n moves => ?_) hw.holds, Or.inl rfl⟩
    rw [hhandle, hl, List.append_nil]
    rfl
  | some l =>
    obtain ⟨new, henable, hnew⟩ := settles_enable (c := c) hw hfree l hrevert
    refine ⟨_, henable.congr fun n moves => ?_, Or.inr ⟨l, new, rfl, hnew⟩⟩
    rw [hhandle, hl]

/-- A change of grammar is handled with at most one step to the canonical dialect and at most one
attempt to go to the lenient one, the way back apart. -/
theorem settles_handleGrammar (hw : Watched d o before after p doc e) (g : Grammar)
    (revert : Nat → Nat → Grammar → Action (Traced σ κ) Unit) {R : List Move → Prop}
    (hrevert : ∀ q e' doc', p = some q → Watched d o before after p doc' e' →
      e'.tracked.lookup d = none → ∃ new, Settles h d (fun n => revert n d q) e' new ∧ R new) :
    ∃ off on, Settles h d (fun n => handleGrammar h c (revert n) d g p) e (off ++ on) ∧
      off.Sublist [.disable d] ∧
      (on = [] ∨ ∃ l new, on = .enable d l :: new ∧ (new = [] ∨ R new)) := by
  cases htracked : e.tracked.lookup d with
  | none =>
    obtain ⟨on, hhandled, hon⟩ := settles_handleGrammar_of_free (c := c) hw htracked g revert
      fun q e' => hrevert q e' doc
    exact ⟨[], on, hhandled, List.nil_sublist _, hon⟩
  | some current =>
    -- the language may stay the same; else the document is canonical before it is tried again
    by_cases hsame : c.languageOf g = some current
    · refine ⟨[], [], .ok (x := .success) (fun n moves => ?_) hw.holds, List.nil_sublist _,
        Or.inl rfl⟩
      rw [handleGrammar, Action.bind_apply, quietly_apply, Action.ask_apply]
      simp only [htracked, if_pos hsame, List.append_nil]
      rfl
    have hhandle (n : Nat) (moves : List Move) :
        handleGrammar h c (revert n) d g p (e, moves) =
          (quietly (Editor.disable h c d) >>= fun outcome => match c.languageOf g with
            | none => pure outcome
            | some l => enable h c (revert n) d p l) (e, moves ++ [Move.disable d]) := by
      rw [handleGrammar, Action.bind_apply, quietly_apply, Action.ask_apply]
      simp only [htracked, if_neg hsame]
      rfl
    obtain ⟨e₂, f, hr, hshape, -, s, hs, herror⟩ |
        ⟨e₂, doc₂, outcome, e₁, -, hr, hshape, hakin, -⟩ :=
      disable_ends h.respects_true c hw.holds trivial htracked
    · refine ⟨[.disable d], [], .error (f := f) (fun n moves => ?_) (hshape.holds hw.holds)
        ⟨s, f, hs, .inr herror⟩, .refl _, Or.inl rfl⟩
      rw [hhandle, Action.bind_apply, quietly_apply, hr]
      rfl
    have hw₂ := hw.of_shape hshape hakin
    have hfree₂ : e₂.tracked.lookup d = none := by
      rw [hshape.tracked]
      exact lookup_filter_self d e.tracked
    cases hl : c.languageOf g with
    | none =>
      refine ⟨[.disable d], [], .ok (x := outcome) (fun n moves => ?_) hw₂.holds, .refl _,
        Or.inl rfl⟩
      rw [hhandle, Action.bind_apply, quietly_apply, hr, hl]
      rfl
    | some l =>
      obtain ⟨new, henable, hnew⟩ :=
        settles_enable (c := c) hw₂ hfree₂ l fun q e' => hrevert q e' doc₂
      refine ⟨[.disable d], _, henable.move fun n moves => ?_, .refl _, Or.inr ⟨l, new, rfl, hnew⟩⟩
      rw [hhandle, Action.bind_apply, quietly_apply, hr, hl]

/-- The way back from a refusal: the document gets the grammar that was noted last, unless it has
it. Whoever refuses this, too, gives back the grammar that the document has then. -/
theorem settles_back {q : Grammar} (hw : Watched d o before after (some q) doc e)
    (hbefore : Listeners before) (hafter : Listeners after) (hfree : e.tracked.lookup d = none)
    (m : Nat → Nat) :
    ∃ new, Settles h d (fun n => setGrammar h c (m n + 1 + 1) d q) e new ∧
      ∃ l, new.Sublist [.change d q, .enable d l] := by
  by_cases hne : doc.grammar = q
  · subst hne
    exact ⟨[], settles_same hw.holds fun n => m n + 1, "", List.nil_sublist _⟩
  -- the observation has still noted the same grammar, so that a second way back leads nowhere
  obtain ⟨on, hhandled, hon⟩ := settles_handleGrammar_of_free (c := c) (R := fun new => new = [])
    (hw.announced q) hfree q (fun n => setGrammar h c (m n + 1))
    fun q' e' hq hw' _ => by
      obtain rfl := Option.some.inj hq
      exact ⟨[], settles_same hw'.holds m, rfl⟩
  refine ⟨_, settles_setGrammar (m := fun n => m n + 1) hw hbefore hafter hne hhandled, ?_⟩
  obtain rfl | ⟨l, new, rfl, hnew⟩ := hon
  · exact ⟨"", (List.nil_sublist _).cons_cons _⟩
  · obtain rfl : new = [] := hnew.elim id id
    exact ⟨l, .refl _⟩

/-- The moves of a change of grammar, some of which may be left out: the document gets the grammar,
it is turned canonical, it is tried to turn it lenient, it gets another grammar back, and it is
tried to turn it lenient in the language of that one. -/
theorem settles_change (hw : Watched d o before after p doc e) (hbefore : Listeners before)
    (hafter : Listeners after) (hne : doc.grammar ≠ g) :
    ∃ new, Settles h d (fun n => setGrammar h c (n + 3) d g) e (.change d g :: new) ∧
      ∃ l q l', new.Sublist [.disable d, .enable d l, .change d q, .enable d l'] := by
  obtain ⟨off, on, hhandled, hoff, hon⟩ := settles_handleGrammar (c := c)
    (R := fun new => ∃ q l', new.Sublist [.change d q, .enable d l']) (hw.announced g) g
    (fun n => setGrammar h c (n + 2)) fun q e' doc' hp hw' hfree => by
      obtain ⟨new, hsettles, l', hnew⟩ :=
        settles_back (c := c) (hp ▸ hw') hbefore hafter hfree fun n => n
      exact ⟨new, hsettles, q, l', hnew⟩
  refine ⟨off ++ on, settles_setGrammar (m := fun n => n + 2) hw hbefore hafter hne hhandled, ?_⟩
  -- moves that are left out may be said to be any
  obtain ⟨l, q, l', hsublist⟩ : ∃ l q l',
      on.Sublist [.enable d l, .change d q, .enable d l'] := by
    obtain rfl | ⟨l, new, rfl, rfl | ⟨q, l', hnew⟩⟩ := hon
    · exact ⟨"", g, "", List.nil_sublist _⟩
    · exact ⟨l, g, "", (List.nil_sublist _).cons_cons _⟩
    · exact ⟨l, q, l', hnew.cons_cons _⟩
  exact ⟨l, q, l', hoff.append hsublist⟩

end Ends

end Traced

section Settling

variable {h : Host σ κ} {c : ControllerSettings} {e : Editor σ κ} {d o : Nat} {doc : Document κ}
  {before after : List Observer} {p : Option Grammar}

/-- A change of grammar of a document that the controller follows through one observation comes to
an end: its bound on the depth makes no difference from three on, and it succeeds unless the host is
erratic. With the document's first change of grammar it makes at most one further one; a lenient
document is turned canonical at most once, and it is tried at most twice to turn it lenient. -/
theorem changeGrammar_settles (hdoc : e.Holds d doc)
    (hfollowers : doc.grammarObservers.callbacks = before ++ .controller o :: after)
    (hbefore : Listeners before) (hafter : Listeners after)
    (hknown : e.observations[o]? = some ⟨d, p⟩) (g : Grammar) :
    ∃ r e' moves, changeGrammar h c d g e = (r, e') ∧
      (∀ n, setGrammar h c (n + 3) d g e = (r, e')) ∧
      (¬ Erratic h (fun _ => True) d → r = .ok ()) ∧
      (∀ n, Traced.setGrammar h c (n + 3) d g (e, []) = (r, (e', moves))) ∧
      moves.tail.countP Move.isChange ≤ 1 ∧ moves.countP Move.isDisable ≤ 1 ∧
      moves.countP Move.isEnable ≤ 2 := by
  obtain ⟨moves, ⟨r, e', hends, -, hfails⟩, hchanges, hdisables, henables⟩ : ∃ moves,
      Traced.Settles h d (fun n => Traced.setGrammar h c (n + 3) d g) e moves ∧
      moves.tail.countP Move.isChange ≤ 1 ∧ moves.countP Move.isDisable ≤ 1 ∧
      moves.countP Move.isEnable ≤ 2 := by
    -- a grammar that the document has already makes no move at all
    by_cases hne : doc.grammar = g
    · subst hne
      exact ⟨[], Traced.settles_same hdoc fun n => n + 2, by decide⟩
    · obtain ⟨new, hsettles, l, q, l', hnew⟩ :=
        Traced.settles_change (c := c) ⟨hdoc, hfollowers, hknown⟩ hbefore hafter hne
      exact ⟨_, hsettles, hnew.countP_le, (hnew.cons_cons (.change d g)).countP_le,
        (hnew.cons_cons (.change d g)).countP_le⟩
  -- the moves are recorded on the side, and the run without them is the same
  have htraced (n : Nat) : Traced.setGrammar h c (n + 3) d g (e, []) = (r, (e', moves)) :=
    hends n []
  have hplain (n : Nat) : setGrammar h c (n + 3) d g e = (r, e') := by
    rw [← Traced.erases_setGrammar h c (n + 3) d g (e, []), htraced]
  refine ⟨r, e', moves, hplain 197, hplain, fun hsteady => ?_, htraced, hchanges, hdisables,
    henables⟩
  cases r with
  | ok u => rfl
  | error f => exact absurd (hfails f rfl) hsteady

/-- A lenient script that cannot be converted gets the grammar of lenient JSON: no change of grammar
consists of more moves. -/
theorem settles_afterUnclosed :
    let c : ControllerSettings := ⟨ControllerSettings.standardScopes, true⟩
    let g : Grammar := ⟨"source.json.lenient", "Lenient JSON"⟩
    ∃ e', changeGrammar Memory.host c 0 g (afterUnclosed g 2) = (.ok (), e') ∧
      ∀ n, Traced.setGrammar Memory.host c (n + 3) 0 g (afterUnclosed g 2, []) =
        (.ok (), (e', [.change 0 g, .disable 0, .enable 0 "json",
          .change 0 ⟨"source.js.lenient", "Lenient JavaScript"⟩, .enable 0 "js"])) := by
  intro c g
  have hfollowers : (afterUnclosed g 2).documents[0]?.map (·.grammarObservers.callbacks)
      = some [.controller 0] := by decide +kernel
  obtain ⟨doc, hdoc, hcallbacks⟩ := Option.map_eq_some_iff.mp hfollowers
  have hknown : (afterUnclosed g 2).observations[0]?
      = some ⟨0, some ⟨"source.js.lenient", "Lenient JavaScript"⟩⟩ := by decide +kernel
  have hnobody : Listeners [] := fun n hn => absurd hn List.not_mem_nil
  obtain ⟨r, e', moves, hplain, -, -, htraced, -⟩ :=
    changeGrammar_settles (h := Memory.host) (c := c) hdoc hcallbacks hnobody hnobody hknown g
  -- the run with three levels is evaluated, and the theorem gives all deeper ones
  have hmoves : let s := Traced.setGrammar Memory.host c 3 0 g (afterUnclosed g 2, [])
      s.1.isOk = true ∧ s.2.2 = [.change 0 g, .disable 0, .enable 0 "json",
        .change 0 ⟨"source.js.lenient", "Lenient JavaScript"⟩, .enable 0 "js"] := by
    decide +kernel
  rw [htraced 0] at hmoves
  obtain ⟨hok, rfl⟩ := hmoves
  cases r with
  | ok u => exact ⟨e', hplain, htraced⟩
  | error f => contradiction

end Settling

end Dialects.Editor

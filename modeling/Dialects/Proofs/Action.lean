import Dialects.Action

/-!
# What actions keep

What follows an action starts where that action has left off (`bind_of_ok`). An action preserves a
property of the state if the state that it leaves has the property whenever the one it starts in
has, whether or not the action fails.
-/

namespace Dialects

/-- Whether a result is a given value can be decided although failures are not compared. -/
theorem eq_ok_of_toOption {ε α : Type} {e : Except ε α} {x : α} (h : e.toOption = some x) :
    e = .ok x := by
  cases e with
  | error f => contradiction
  | ok y => exact congrArg Except.ok (Option.some.inj h)

/-- A result that is a success is a value. -/
theorem exists_of_isOk {ε α : Type} {e : Except ε α} (h : e.isOk = true) : ∃ x, e = .ok x := by
  cases e with
  | error f => contradiction
  | ok x => exact ⟨x, rfl⟩

/-- A value stays what it is whatever failures are turned into. -/
@[simp]
theorem mapError_ok {ε ε' α : Type} (f : ε → ε') (x : α) :
    (Except.ok x : Except ε α).mapError f = .ok x := rfl

@[simp]
theorem mapError_error {ε ε' α : Type} (f : ε → ε') (x : ε) :
    (Except.error x : Except ε α).mapError f = .error (f x) := rfl

end Dialects

namespace Dialects.Action

variable {σ τ α β γ : Type} {Q : σ → Prop}

/-- An action that succeeds hands its value and the state that it leaves to what follows. -/
theorem bind_of_ok {a : Action σ α} {k : α → Action σ β} {x : α} {s s' : σ}
    (ha : a s = (.ok x, s')) : (a >>= k) s = k x s' := by
  rw [Action.bind_apply, ha]

/-- To drop the value of an action makes no difference to the state. -/
theorem snd_bind_pure (a : Action σ α) (s : σ) : ((a >>= fun _ => pure ()) s).2 = (a s).2 := by
  rw [Action.bind_apply]
  rcases a s with ⟨_ | _, s'⟩ <;> rfl

/-- The action keeps a property of the state, whether or not it fails. -/
def Preserves (Q : σ → Prop) (a : Action σ α) : Prop := ∀ s, Q s → Q (a s).2

theorem Preserves.pure (x : α) : Preserves Q (pure x : Action σ α) := by
  intro s hs
  exact hs

theorem Preserves.throw (f : Failure) : Preserves Q (throw f : Action σ α) := by
  intro s hs
  exact hs

theorem Preserves.ask (f : σ → α) : Preserves Q (Action.ask f) := by
  intro s hs
  exact hs

/-- A change preserves what it does not touch. -/
theorem Preserves.change {f : σ → σ} (hf : ∀ s, Q s → Q (f s)) : Preserves Q (Action.change f) :=
  hf

theorem Preserves.ofExcept (r : Except Failure α) : Preserves Q (Action.ofExcept r) := by
  intro s hs
  exact hs

/-- What follows an action has to keep the property of the state that the action leaves. -/
theorem Preserves.bind {a : Action σ α} {k : α → Action σ β} (ha : Preserves Q a)
    (hk : ∀ x, Preserves Q (k x)) : Preserves Q (a >>= k) := by
  intro s hs
  have hfirst := ha s hs
  rw [Action.bind_apply]
  rcases hr : a s with ⟨f | x, s'⟩
  · rw [hr] at hfirst
    exact hfirst
  · rw [hr] at hfirst
    exact hk x s' hfirst

/-- What follows an action may lead on to another property. -/
theorem Preserves.bind_imp {R : σ → Prop} {a : Action σ α} {k : α → Action σ β}
    (ha : Preserves Q a) (himp : ∀ s, Q s → R s) (hk : ∀ x s, Q s → R (k x s).2) (s : σ)
    (hs : Q s) : R ((a >>= k) s).2 := by
  have hfirst := ha s hs
  rw [Action.bind_apply]
  rcases hr : a s with ⟨f | x, s'⟩
  · rw [hr] at hfirst
    exact himp s' hfirst
  · rw [hr] at hfirst
    exact hk x s' hfirst

/-- Trying an action out preserves what the action does. -/
theorem Preserves.attempt {a : Action σ α} (ha : Preserves Q a) : Preserves Q a.attempt := by
  intro s hs
  exact ha s hs

/-- Doing something with every item of a list preserves what each step does. -/
theorem Preserves.mapM {k : γ → Action σ β} (hk : ∀ x, Preserves Q (k x)) (xs : List γ) :
    Preserves Q (xs.mapM k) := by
  induction xs with
  | nil => exact Preserves.pure []
  | cons x xs ih =>
    rw [List.mapM_cons]
    exact (hk x).bind fun y => ih.bind fun ys => Preserves.pure (y :: ys)

/-- Doing something for every item of a list preserves what each step does. -/
theorem Preserves.forM {k : γ → Action σ PUnit} {xs : List γ}
    (hk : ∀ x ∈ xs, Preserves Q (k x)) : Preserves Q (xs.forM k) := by
  induction xs with
  | nil => exact Preserves.pure PUnit.unit
  | cons x xs ih =>
    obtain ⟨hx, hxs⟩ := List.forall_mem_cons.mp hk
    exact hx.bind fun _ => ih hxs

end Dialects.Action

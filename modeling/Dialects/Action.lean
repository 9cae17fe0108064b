import Dialects.Failure

/-!
# Actions

An action works on a state and may fail. What it has done to the state before it fails stays done.
-/

namespace Dialects

/-- A computation that reads and changes a state and may fail. -/
abbrev Action (σ α : Type) := ExceptT Failure (StateM σ) α

namespace Action

variable {σ α β : Type}

/-- Runs an action: its result and the state it leaves. -/
def perform (a : Action σ α) (s : σ) : Except Failure α × σ := a s

/-- Runs an action and gives its failure, if it fails, as a value. -/
def attempt (a : Action σ α) : Action σ (Except Failure α) := fun s =>
  let (r, s') := a s
  (.ok r, s')

/-- An action that only reads the state. -/
def ask (f : σ → α) : Action σ α := fun s => (.ok (f s), s)

/-- An action that only changes the state. -/
def change (f : σ → σ) : Action σ Unit := fun s => (.ok (), f s)

/-- An action with a known outcome. -/
def ofExcept (r : Except Failure α) : Action σ α := fun s => (r, s)

/-- An action on a part of the state, given how to read and how to replace that part. -/
def on {τ : Type} (part : σ → τ) (put : τ → σ → σ) (a : Action τ α) : Action σ α := fun s =>
  let (r, t) := a (part s)
  (r, put t s)

/-- An action that only gives a value. -/
@[simp] theorem pure_apply (x : α) (s : σ) : (pure x : Action σ α) s = (.ok x, s) := rfl

/-- An action that only fails. -/
@[simp] theorem throw_apply (f : Failure) (s : σ) :
    (throw f : Action σ α) s = (.error f, s) := rfl

/-- The second action starts in the state that the first one leaves, and not at all if the first
one fails. -/
theorem bind_apply (a : Action σ α) (k : α → Action σ β) (s : σ) :
    (a >>= k) s = match a s with
      | (.ok x, s') => k x s'
      | (.error f, s') => (.error f, s') := by
  simp only [bind, ExceptT.bind, ExceptT.mk, StateT.bind]
  rcases a s with ⟨r, s'⟩
  cases r <;> rfl

/-- An attempt never fails. -/
@[simp] theorem attempt_apply (a : Action σ α) (s : σ) : a.attempt s = (.ok (a s).1, (a s).2) := rfl

/-- Asking leaves the state as it is. -/
@[simp] theorem ask_apply (f : σ → α) (s : σ) : ask f s = (.ok (f s), s) := rfl

/-- Changing the state never fails. -/
@[simp] theorem change_apply (f : σ → σ) (s : σ) : change f s = (.ok (), f s) := rfl

/-- A known outcome leaves the state as it is. -/
@[simp] theorem ofExcept_apply (r : Except Failure α) (s : σ) :
    (ofExcept r : Action σ α) s = (r, s) := rfl

/-- What is done to a part of the state is put back into the whole, also after a failure. -/
@[simp] theorem on_apply {τ : Type} (part : σ → τ) (put : τ → σ → σ) (a : Action τ α) (s : σ) :
    (a.on part put) s = ((a (part s)).1, put (a (part s)).2 s) := rfl

end Action

end Dialects

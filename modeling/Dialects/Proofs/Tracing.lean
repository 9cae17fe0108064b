import Dialects.Proofs.Action

/-!
# Actions that leave a trace

To say what happens in a run, and not only what comes of it, a program is run once more on its state
with a list of events beside it. That the list makes no difference is put together from the parts of
the program (`Traced.Erases`).
-/

namespace Dialects

/-- A state and what has happened on the way to it, first event first. -/
abbrev Traced (σ ε : Type) := σ × List ε

namespace Traced

open Dialects.Action

variable {σ ε α β γ : Type}

/-- An action without events. -/
def quietly (a : Action σ α) : Action (Traced σ ε) α := a.on Prod.fst fun s t => (s, t.2)

/-- Puts an event on record. -/
def note (event : ε) : Action (Traced σ ε) Unit := .change fun t => (t.1, t.2 ++ [event])

@[simp]
theorem quietly_apply (a : Action σ α) (s : σ) (h : List ε) :
    quietly a (s, h) = ((a s).1, ((a s).2, h)) := rfl

@[simp]
theorem note_apply (event : ε) (s : σ) (h : List ε) :
    note event (s, h) = (.ok (), (s, h ++ [event])) := rfl

/-- Without its events the first action is the second one. -/
def Erases (a : Action (Traced σ ε) α) (b : Action σ α) : Prop :=
  ∀ t, ((a t).1, (a t).2.1) = b t.1

variable {a : Action (Traced σ ε) α} {b : Action σ α} {k : α → Action (Traced σ ε) β}
  {k' : α → Action σ β}

/-- An action without events is itself, whatever has happened before. -/
theorem erases_quietly (b : Action σ α) : Erases (quietly b : Action (Traced σ ε) α) b :=
  fun _ => rfl

theorem erases_pure (x : α) : Erases (pure x : Action (Traced σ ε) α) (pure x) := fun _ => rfl

theorem erases_throw (f : Failure) : Erases (throw f : Action (Traced σ ε) α) (throw f) :=
  fun _ => rfl

/-- What erases to something step by step erases to it as a whole. -/
theorem Erases.bind (ha : Erases a b) (hk : ∀ x, Erases (k x) (k' x)) :
    Erases (a >>= k) (b >>= k') := by
  intro t
  have hfirst := ha t
  rw [Action.bind_apply, Action.bind_apply, ← hfirst]
  rcases a t with ⟨f | x, t'⟩
  · rfl
  · exact hk x t'

/-- An event changes nothing in the state. -/
theorem Erases.note {event : ε} (ha : Erases a b) : Erases (Traced.note event >>= fun _ => a) b :=
  fun t => ha (t.1, t.2 ++ [event])

/-- The same for an event at the end. -/
theorem Erases.noted {event : ε} {a : Action (Traced σ ε) Unit} {b : Action σ Unit}
    (ha : Erases a b) : Erases (a >>= fun _ => Traced.note event) b := by
  intro t
  rw [Action.bind_apply, ← ha t]
  rcases a t with ⟨_ | _, _⟩ <;> rfl

/-- Doing something for every item of a list erases to doing so without events. -/
theorem Erases.forM {k : γ → Action (Traced σ ε) PUnit} {k' : γ → Action σ PUnit}
    (hk : ∀ x, Erases (k x) (k' x)) (xs : List γ) : Erases (xs.forM k) (xs.forM k') := by
  induction xs with
  | nil => exact erases_pure PUnit.unit
  | cons x xs ih => exact (hk x).bind fun _ => ih

end Traced

namespace Action

variable {σ α β : Type} {P : σ → α → Prop} {Q : σ → Prop} {a : Action σ α} {k : α → Action σ β}

/-- The action leaves the state alone, and what it gives is true of the state. -/
def Reads (P : σ → α → Prop) (a : Action σ α) : Prop :=
  ∀ s, (a s).2 = s ∧ ∀ x, (a s).1 = .ok x → P s x

/-- A reading action gives something that is true of the state, or fails, and changes nothing. -/
theorem Reads.cases (ha : Reads P a) (s : σ) :
    (∃ x, P s x ∧ a s = (.ok x, s)) ∨ ∃ f, a s = (.error f, s) := by
  obtain ⟨hsame, htrue⟩ := ha s
  rcases hr : a s with ⟨f | x, s'⟩ <;> rw [hr] at hsame htrue <;> obtain rfl : s' = s := hsame
  · exact .inr ⟨f, rfl⟩
  · exact .inl ⟨x, htrue x rfl, rfl⟩

/-- A reading action keeps whatever is true of the state. -/
theorem Reads.preserves (ha : Reads P a) : Preserves Q a := fun s hs => (ha s).1.symm ▸ hs

/-- What follows may use what has been read. -/
theorem Preserves.read (ha : Reads P a) (hk : ∀ s x, P s x → Q s → Q (k x s).2) :
    Preserves Q (a >>= k) := by
  intro s hs
  rw [Action.bind_apply]
  rcases ha.cases s with ⟨x, htrue, hr⟩ | ⟨f, hr⟩ <;> rw [hr]
  · exact hk s x htrue hs
  · exact hs

theorem Reads.ask (f : σ → α) : Reads (fun s x => f s = x) (Action.ask f) :=
  fun _ => ⟨rfl, fun _ hx => Except.ok.inj hx⟩

/-- Reading actions one after the other leave the state alone. -/
theorem Reads.bind {R : σ → β → Prop} (ha : Reads P a)
    (hk : ∀ s x, P s x → (k x s).2 = s ∧ ∀ y, (k x s).1 = .ok y → R s y) :
    Reads R (a >>= k) := by
  intro s
  rw [Action.bind_apply]
  rcases ha.cases s with ⟨x, htrue, hr⟩ | ⟨f, hr⟩ <;> rw [hr]
  · exact hk s x htrue
  · exact ⟨rfl, nofun⟩

/-- A reading action puts nothing on record. -/
theorem Reads.quietly {ε : Type} (ha : Reads P a) :
    Reads (fun t x => P t.1 x) (Traced.quietly a : Action (Traced σ ε) α) :=
  fun t => ⟨Prod.ext (ha t.1).1 rfl, (ha t.1).2⟩

end Action

end Dialects

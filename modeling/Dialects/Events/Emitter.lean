/-!
# Emitters

An emitter is a list of callbacks in the order of their subscriptions. Equal callbacks may be
subscribed several times; taking one back removes the first that is equal to it.
-/

namespace Dialects

/-- The callbacks that are subscribed, first one first. -/
structure Emitter (α : Type) where
  /-- The callbacks. -/
  callbacks : List α
  deriving DecidableEq, Repr

namespace Emitter

variable {α : Type}

/-- An emitter without callbacks. -/
def empty : Emitter α := ⟨[]⟩

/-- Subscribes a callback. -/
def subscribe (e : Emitter α) (a : α) : Emitter α := ⟨e.callbacks ++ [a]⟩

/-- Takes back the first subscription of an equal callback, if there is one. -/
def unsubscribe [DecidableEq α] (e : Emitter α) (a : α) : Emitter α := ⟨e.callbacks.erase a⟩

/-- The number of subscriptions. -/
def size (e : Emitter α) : Nat := e.callbacks.length

/-- A new subscription comes last. -/
@[simp] theorem callbacks_subscribe (e : Emitter α) (a : α) :
    (e.subscribe a).callbacks = e.callbacks ++ [a] := rfl

/-- At most one subscription is taken back at a time. -/
@[simp] theorem callbacks_unsubscribe [DecidableEq α] (e : Emitter α) (a : α) :
    (e.unsubscribe a).callbacks = e.callbacks.erase a := rfl

/-- Equal callbacks count each time they are subscribed. -/
@[simp] theorem size_subscribe (e : Emitter α) (a : α) : (e.subscribe a).size = e.size + 1 := by
  simp [size]

end Emitter

end Dialects

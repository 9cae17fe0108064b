import Dialects.Editor.Handle

/-!
# Storing in one piece

A text that is stored in one piece through a mapped handle is converted first. Only if that succeeds
is it stored through the handle inside, and only then is the success announced (`store_mapped`).
-/

namespace Dialects.Streams

variable {σ : Type}

/-- Storing a text in one piece. -/
theorem store_singleton (k : Sink σ) (t : Text) :
    k.store [t] = (do k.openWrite; k.write t; k.commit t) := by
  have hpieces : [t].forM k.write = (k.write t >>= fun _ => pure ()) := rfl
  -- each step after the other: where one fails, what follows is left out on both sides
  funext s
  rw [Sink.store, hpieces, List.flatten_singleton]
  simp only [Action.bind_apply]
  rcases k.openWrite s with ⟨_ | _, s₁⟩
  · rfl
  simp only []
  rcases k.write t s₁ with ⟨_ | _, s₂⟩ <;> rfl

/-- What happens at the commit of a sink that converts: the text is converted before the store is
opened. -/
theorem transaction_sink_commit (convert : Text → Action σ Text) (inner : Sink σ)
    (listener : Listener σ) (t : Text) :
    (Transaction.sink convert inner listener).commit t = ((convert t).attempt >>= fun
      | .error f => do
        listener.onError f
        throw (.unsaved (← Action.ask inner.path) f)
      | .ok converted => do
        inner.openWrite
        inner.write converted
        inner.commit converted
        listener.onSuccess) := by
  funext s
  simp only [Transaction.sink, Transaction.finish, Transaction.fresh, Action.bind_apply,
    Action.ask_apply, Transaction.outside, Transaction.inside, Action.on_apply,
    Action.change_apply, Action.attempt_apply, List.flatten_cons, List.flatten_nil,
    List.append_nil, Bool.false_eq_true, if_false]
  -- what the converter does to the state does not matter from here on
  generalize (convert t s).2 = s'
  cases (convert t s).1 with
  | error f =>
    simp only [Action.bind_apply, Action.on_apply, Action.change_apply, Action.ask_apply,
      Action.throw_apply]
    rcases listener.onError f s' with ⟨_ | _, s₁⟩ <;> rfl
  | ok converted =>
    simp only [Action.bind_apply, Action.on_apply, Action.change_apply]
    -- each of the three steps may fail, and then the ones behind it are not reached
    rcases inner.openWrite s' with ⟨_ | _, s₁⟩
    · rfl
    simp only []
    rcases inner.write converted s₁ with ⟨_ | _, s₂⟩
    · rfl
    simp only []
    rcases inner.commit converted s₂ with ⟨_ | _, s₃⟩ <;> rfl

/-- A mapped handle converts the text first, and then stores it through the handle inside. -/
theorem store_mapped {β : Type} (files : Files σ) (m : Mapping σ β) (inner : Handle β) (b : β)
    (t : Text) :
    ((Handle.mapped inner b).sink files m).store [t]
      = ((m.convert b .toCanonical t).attempt >>= fun
        | .error f => do
          (m.listener b).onError f
          throw (.unsaved (← Action.ask (inner.sink files m).path) f)
        | .ok converted => do
          (inner.sink files m).store [converted]
          (m.listener b).onSuccess) := by
  funext s
  -- opening the sink and writing to it do nothing before the commit
  have hcommit : ((Handle.mapped inner b).sink files m).store [t] s
      = ((Handle.mapped inner b).sink files m).commit t s := by
    rw [store_singleton]
    rfl
  rw [hcommit, Handle.sink, transaction_sink_commit]
  simp only [Action.bind_apply, Action.attempt_apply]
  rcases m.convert b .toCanonical t s with ⟨f | converted, s₁⟩
  · rfl
  simp only [store_singleton, Action.bind_apply]
  rcases (inner.sink files m).openWrite s₁ with ⟨_ | _, s₂⟩
  · rfl
  simp only []
  rcases (inner.sink files m).write converted s₂ with ⟨_ | _, s₃⟩ <;> rfl

end Dialects.Streams

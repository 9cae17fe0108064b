import Dialects.Editor.Document
import Dialects.Proofs.Streams.Storing

/-!
# Actions on the host

Reading and writing through a handle, and converting, are actions on the host. They leave documents
alone, and if they fail then the host has failed, which goes on record.

`HostOnly I` relates two states of an editor between which only the host has been at work;
`I` is a property of the host's state that its operations keep (`Host.Respects`). An action that
always stays within this relation is `Within I`, and it is `Confined I` if moreover it fails only
with the host. Both are closed under sequences of actions, so that they hold of whatever is built
from single operations of the host, in particular of reading and storing through a handle
(`confined_read`, `confined_store`).
-/

namespace Dialects

open Streams

variable {σ κ : Type}

/-- Every operation of the host keeps a property of its state. -/
structure Host.Respects (h : Host σ κ) (I : σ → Prop) : Prop where
  read : ∀ n s, I s → I (h.files.read n s).2
  openWrite : ∀ n s, I s → I (h.files.openWrite n s).2
  write : ∀ n t s, I s → I (h.files.write n t s).2
  commit : ∀ n t s, I s → I (h.files.commit n t s).2
  converters : ∀ l s, I s → I (h.converters l s).2
  convert : ∀ k d t s, I s → I (h.convert k d t s).2
  checkModified : ∀ d s, I s → I (h.checkModified d s).2
  checkEdit : ∀ d s, I s → I (h.checkEdit d s).2
  checkLoad : ∀ d s, I s → I (h.checkLoad d s).2

/-- What holds of every state is kept by every host. -/
theorem Host.respects_true (h : Host σ κ) : h.Respects fun _ => True := by
  constructor <;> intros <;> trivial

namespace Editor

/-- What stays as it is, or only grows, while documents are changed and the host is at work. -/
structure Frame (I : σ → Prop) (e e' : Editor σ κ) : Prop where
  observations : e'.observations = e.observations
  log : e'.log = e.log
  faults : ∃ new, e'.faults = e.faults ++ new
  host : I e.host → I e'.host

/-- Only the host has been at work, and perhaps something has been notified. -/
structure HostOnly (I : σ → Prop) (e e' : Editor σ κ) : Prop extends Frame I e e' where
  documents : e'.documents = e.documents
  tracked : e'.tracked = e.tracked

variable {I : σ → Prop} {e e₁ e₂ e₃ : Editor σ κ}

theorem Frame.refl (I : σ → Prop) (e : Editor σ κ) : Frame I e e :=
  ⟨rfl, rfl, ⟨[], (List.append_nil _).symm⟩, id⟩

/-- What stays as it is or grows in two steps does so in both together. -/
theorem Frame.trans (h₁ : Frame I e₁ e₂) (h₂ : Frame I e₂ e₃) : Frame I e₁ e₃ := by
  obtain ⟨new, hnew⟩ := h₁.faults
  obtain ⟨new', hnew'⟩ := h₂.faults
  refine ⟨h₂.observations.trans h₁.observations, h₂.log.trans h₁.log, ⟨new ++ new', ?_⟩,
    h₂.host ∘ h₁.host⟩
  rw [hnew', hnew, List.append_assoc]

/-- Faults stay on record. -/
theorem Frame.faults_eq_nil (h : Frame I e₁ e₂) (hnil : e₂.faults = []) : e₁.faults = [] := by
  obtain ⟨new, hnew⟩ := h.faults
  rw [hnew] at hnil
  exact (List.append_eq_nil_iff.mp hnil).1

/-- Once the host has failed, that stays on record. -/
theorem Frame.faults_ne_nil (h : Frame I e₁ e₂) (hne : e₁.faults ≠ []) : e₂.faults ≠ [] :=
  mt h.faults_eq_nil hne

theorem HostOnly.refl (I : σ → Prop) (e : Editor σ κ) : HostOnly I e e :=
  ⟨Frame.refl I e, rfl, rfl⟩

theorem HostOnly.trans (h₁ : HostOnly I e₁ e₂) (h₂ : HostOnly I e₂ e₃) : HostOnly I e₁ e₃ :=
  ⟨h₁.toFrame.trans h₂.toFrame, h₂.documents.trans h₁.documents, h₂.tracked.trans h₁.tracked⟩

/-! ## Actions that only deal with the host -/

/-- The action only deals with the host and with notifications. -/
def Within (I : σ → Prop) {α : Type} (a : Action (Editor σ κ) α) : Prop :=
  ∀ e, HostOnly I e (a e).2

/-- The action only deals with the host and with notifications, and fails only if the host has. -/
structure Confined (I : σ → Prop) {α : Type} (a : Action (Editor σ κ) α) : Prop where
  within : Within I a
  loud : ∀ e f, (a e).1 = .error f → (a e).2.faults ≠ []

section Combinators

variable {α β : Type}

theorem Within.pure (x : α) : Within I (pure x : Action (Editor σ κ) α) := by
  intro e
  exact HostOnly.refl I e

theorem Within.throw (f : Failure) : Within I (throw f : Action (Editor σ κ) α) := by
  intro e
  exact HostOnly.refl I e

theorem Within.ask (f : Editor σ κ → α) : Within I (Action.ask f) := by
  intro e
  exact HostOnly.refl I e

theorem Within.notify (f : NotificationCentre → NotificationCentre) :
    Within I (notify f : Action (Editor σ κ) Unit) := by
  intro e
  show HostOnly I e { e with notifications := f e.notifications }
  exact ⟨⟨rfl, rfl, ⟨[], (List.append_nil _).symm⟩, id⟩, rfl, rfl⟩

/-- Actions one after the other only deal with the host and with notifications if each does. -/
theorem Within.bind {a : Action (Editor σ κ) α} {k : α → Action (Editor σ κ) β}
    (ha : Within I a) (hk : ∀ x, Within I (k x)) : Within I (a >>= k) := by
  intro e
  have hfirst := ha e
  rw [Action.bind_apply]
  rcases hr : a e with ⟨r, e'⟩
  rw [hr] at hfirst
  cases r with
  | error f => exact hfirst
  | ok x => exact hfirst.trans (hk x e')

theorem Confined.pure (x : α) : Confined I (pure x : Action (Editor σ κ) α) := by
  refine ⟨Within.pure x, ?_⟩
  intro e f hf
  simp at hf

theorem Confined.notify (f : NotificationCentre → NotificationCentre) :
    Confined I (notify f : Action (Editor σ κ) Unit) := by
  refine ⟨Within.notify f, ?_⟩
  intro e f hf
  simp [Editor.notify] at hf

/-- Actions one after the other are confined if each is. -/
theorem Confined.bind {a : Action (Editor σ κ) α} {k : α → Action (Editor σ κ) β}
    (ha : Confined I a) (hk : ∀ x, Confined I (k x)) : Confined I (a >>= k) := by
  refine ⟨ha.within.bind fun x => (hk x).within, ?_⟩
  intro e f hf
  have hloud := ha.loud e
  rw [Action.bind_apply] at hf ⊢
  rcases hr : a e with ⟨r, e'⟩
  rw [hr] at hf hloud
  cases r with
  | error g => exact hloud g rfl
  | ok x => exact (hk x).loud e' f hf

/-- What follows an attempt may fail by itself once the attempt has failed. -/
theorem Confined.attempt_bind {a : Action (Editor σ κ) α}
    {k : Except Failure α → Action (Editor σ κ) β} (ha : Confined I a)
    (hok : ∀ x, Confined I (k (.ok x))) (herror : ∀ f, Within I (k (.error f))) :
    Confined I (a.attempt >>= k) := by
  have hk : ∀ r, Within I (k r) := by
    intro r
    cases r with
    | error f => exact herror f
    | ok x => exact (hok x).within
  refine ⟨Within.bind (a := a.attempt) (fun e => ha.within e) hk, ?_⟩
  intro e f hf
  rw [Action.bind_apply, Action.attempt_apply] at hf ⊢
  cases hr : (a e).1 with
  | error g =>
    -- a failed attempt has left a fault behind, and nothing removes it
    have hfault : (a e).2.faults ≠ [] := ha.loud e g hr
    exact (herror g (a e).2).toFrame.faults_ne_nil hfault
  | ok x =>
    rw [hr] at hf
    exact (hok x).loud (a e).2 f hf

/-- Doing something with every item of a list is confined if each step is. -/
theorem Confined.mapM {γ : Type} {k : γ → Action (Editor σ κ) β} (hk : ∀ x, Confined I (k x))
    (xs : List γ) : Confined I (xs.mapM k) := by
  induction xs with
  | nil => exact Confined.pure []
  | cons x xs ih =>
    rw [List.mapM_cons]
    exact (hk x).bind fun y => ih.bind fun ys => Confined.pure (y :: ys)

/-- Doing something for every item of a list is confined if each step is. -/
theorem Confined.forM {γ : Type} {k : γ → Action (Editor σ κ) PUnit} (hk : ∀ x, Confined I (k x))
    (xs : List γ) : Confined I (xs.forM k) := by
  induction xs with
  | nil => exact Confined.pure PUnit.unit
  | cons x xs ih => exact (hk x).bind fun _ => ih

/-- What succeeds outside leaves its state to the host. -/
theorem outside_of_ok {a : Action σ α} {x : α} {s : σ} (h : a e.host = (.ok x, s)) :
    (outside a : Action (Editor σ κ) α) e = (.ok x, { e with host := s }) := by
  rw [outside, h]

/-- A failure of the host goes on record. -/
theorem outside_of_error {a : Action σ α} {f : Failure} {s : σ} (h : a e.host = (.error f, s)) :
    (outside a : Action (Editor σ κ) α) e
      = (.error f, { e with host := s, faults := e.faults ++ [f] }) := by
  rw [outside, h]

/-- What is done outside is confined if it keeps the property of the host. -/
theorem Confined.outside {a : Action σ α} (ha : ∀ s, I s → I (a s).2) :
    Confined I (outside a : Action (Editor σ κ) α) := by
  refine ⟨fun e => ?_, fun e f hf => ?_⟩
  · have hinv := ha e.host
    rcases hr : a e.host with ⟨r, s⟩
    rw [hr] at hinv
    cases r with
    | ok x =>
      rw [outside_of_ok hr]
      exact ⟨⟨rfl, rfl, ⟨[], (List.append_nil _).symm⟩, hinv⟩, rfl, rfl⟩
    | error f =>
      rw [outside_of_error hr]
      exact ⟨⟨rfl, rfl, ⟨[f], rfl⟩, hinv⟩, rfl, rfl⟩
  · rcases hr : a e.host with ⟨r, s⟩
    cases r with
    | ok x =>
      rw [outside_of_ok hr] at hf
      contradiction
    | error g =>
      -- a failure outside is put among the faults
      rw [outside_of_error hr]
      exact List.append_ne_nil_of_right_ne_nil _ (List.cons_ne_nil g [])

end Combinators

/-! ## Reading and storing through a handle -/

section Handles

variable {h : Host σ κ} (hI : h.Respects I)

include hI

theorem confined_convert (b : Binding κ) (d : Direction) (t : Text) :
    Confined I ((mapping h).convert b d t) :=
  Confined.outside (hI.convert b.set d t)

theorem confined_incoming (handle : Handle (Binding κ)) (t : Text) :
    Confined I (handle.incoming (mapping h) t) := by
  induction handle with
  | file n => exact Confined.pure t
  | mapped inner b ih => exact ih.bind fun t' => confined_convert hI b .toLenient t'
  | forwarding inner ih => exact ih

/-- Reading through a handle deals with the host only. -/
theorem confined_read (handle : Handle (Binding κ)) :
    Confined I (handle.read (files h) (mapping h)) :=
  (Confined.outside (hI.read handle.base)).bind fun chunks =>
    Confined.mapM (confined_incoming hI handle) chunks

/-- A sink that deals with the host only. -/
structure ConfinedSink (I : σ → Prop) (k : Sink (Editor σ κ)) : Prop where
  openWrite : Confined I k.openWrite
  write : ∀ t, Confined I (k.write t)
  commit : ∀ t, Confined I (k.commit t)

/-- What a handle writes to is confined. -/
theorem confined_sink (handle : Handle (Binding κ)) :
    ConfinedSink I (handle.sink (files h) (mapping h)) := by
  induction handle with
  | file n =>
    exact ⟨Confined.outside (hI.openWrite n), fun t => Confined.outside (hI.write n t),
      fun t => Confined.outside (hI.commit n t)⟩
  | forwarding inner ih => exact ih
  | mapped inner b ih =>
    refine ⟨Confined.pure (), fun _ => Confined.pure (), fun t => ?_⟩
    rw [Handle.sink, transaction_sink_commit]
    refine (confined_convert hI b .toCanonical t).attempt_bind (fun converted => ?_) fun f => ?_
    · exact ih.openWrite.bind fun _ => (ih.write converted).bind fun _ =>
        (ih.commit converted).bind fun _ => Confined.notify _
    · have hreport : Within I (((mapping h).listener b).onError f) := Within.notify _
      refine hreport.bind fun _ => ?_
      exact (Within.ask _).bind fun path => Within.throw _

/-- Storing through a handle deals with the host only. -/
theorem confined_store (handle : Handle (Binding κ)) (pieces : List Text) :
    Confined I ((handle.sink (files h) (mapping h)).store pieces) := by
  have hsink := confined_sink hI handle
  exact hsink.openWrite.bind fun _ => (Confined.forM hsink.write pieces).bind fun _ =>
    hsink.commit pieces.flatten

end Handles

end Editor

end Dialects

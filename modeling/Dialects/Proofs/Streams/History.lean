import Dialects.Proofs.Action
import Dialects.Streams.Transaction

/-!
# The history of a writer

A transactional writer is told by the calls that it makes: to its conversion, to its store and to
its listener. Here these calls are put on record, each with what it gave, together with the calls
that are made of the writer itself. Recording leaves the run as it is (`forget_recorded`).

A writer is used by a program, which may go on after a failure or not, and may open blocks within
blocks. A block that is entered does nothing by itself; a block that is left without a failure ends
the writer, and one that is left with a failure does not.

## Main definitions

* `Event`: a call, with what it gave;
* `Program`: what is done with a writer, and `Program.carryOut`, its run;
* `Program.calls`: the calls of a run, and `Program.history`, those of a run that starts with a
  fresh writer.

## Main results

* `carryOut_ofUse`: every single use of a writer is a program;
* `forget_recorded`: a run that is recorded gives what it gives otherwise.
-/

namespace Dialects.Streams

open Dialects.Action

/-- A call in the run of a writer, with what it gave. -/
inductive Event where
  /-- The writer was given a piece of text. -/
  | write (text : Text) (result : Except Failure Unit)
  /-- The writer was told to end. -/
  | finish (result : Except Failure Unit)
  /-- A text was converted. -/
  | convert (text : Text) (result : Except Failure Text)
  /-- The listener was told why a text could not be converted. -/
  | report (cause : Failure)
  /-- The store was opened. -/
  | openStore (result : Except Failure Unit)
  /-- The store was given a text. -/
  | fillStore (text : Text) (result : Except Failure Unit)
  /-- The store was told to keep the text. -/
  | commitStore (text : Text) (result : Except Failure Unit)
  /-- The listener was told that the text is stored. -/
  | announce (result : Except Failure Unit)

/-! ## Recording -/

section Recording

variable {σ α : Type}

/-- An action that goes on record, with its result, when it has been carried out. -/
def record (event : Except Failure α → Event) (a : Action σ α) : Action (σ × List Event) α :=
  fun (s, h) => ((a s).1, ((a s).2, h ++ [event (a s).1]))

/-- The same for an action on a writer, whose surroundings are on record. -/
def note (event : Except Failure α → Event) (a : Action (Transaction × σ × List Event) α) :
    Action (Transaction × σ × List Event) α :=
  fun p => ((a p).1, ((a p).2.1, (a p).2.2.1, (a p).2.2.2 ++ [event (a p).1]))

/-- A store whose operations go on record. -/
def Sink.recorded (k : Sink σ) : Sink (σ × List Event) where
  path p := k.path p.1
  openWrite := record .openStore k.openWrite
  write t := record (.fillStore t) (k.write t)
  commit t := record (.commitStore t) (k.commit t)

/-- A listener whose calls go on record. -/
def Listener.recorded (l : Listener σ) : Listener (σ × List Event) where
  onError f := record (fun _ => .report f) (l.onError f)
  onSuccess := record .announce l.onSuccess

@[simp]
theorem record_apply (event : Except Failure α → Event) (a : Action σ α) (s : σ)
    (h : List Event) : record event a (s, h) = ((a s).1, ((a s).2, h ++ [event (a s).1])) := rfl

theorem note_apply (event : Except Failure α → Event)
    (a : Action (Transaction × σ × List Event) α) (p : Transaction × σ × List Event) :
    note event a p = ((a p).1, ((a p).2.1, (a p).2.2.1, (a p).2.2.2 ++ [event (a p).1])) := rfl

end Recording

/-! ## What a writer does when it is called -/

namespace Transaction

variable {σ : Type} {t : Transaction}

/-- A writer that has failed takes nothing. -/
theorem write_of_failure {f : Failure} (h : t.failure = some f) (text : Text) (s : σ) :
    write text (t, s) = (.error f, (t, s)) := by
  rw [write, Action.bind_apply, Action.ask_apply]
  simp only [h, Action.throw_apply]

/-- A writer that has ended takes nothing. -/
theorem write_of_ended (h : t.failure = none) (hended : t.ended = true) (text : Text) (s : σ) :
    write text (t, s) = (.error (.badValue "write after end"), (t, s)) := by
  rw [write, Action.bind_apply, Action.ask_apply]
  simp only [h, hended, if_true, Action.throw_apply]

/-- A writer that is open takes what it is given. -/
theorem write_of_open (h : t.failure = none) (hopen : t.ended = false) (text : Text) (s : σ) :
    write text (t, s) = (.ok (), ({ t with pieces := t.pieces ++ [text] }, s)) := by
  rw [write, Action.bind_apply, Action.ask_apply]
  simp only [h, hopen, Bool.false_eq_true, if_false, Action.change_apply]

/-- A writer keeps what it takes to itself. -/
theorem write_outside (text : Text) (t : Transaction) (s : σ) : (write text (t, s)).2.2 = s := by
  cases hf : t.failure with
  | some f => rw [write_of_failure hf]
  | none =>
    cases he : t.ended with
    | true => rw [write_of_ended hf he]
    | false => rw [write_of_open hf he]

variable (convert : Text → Action σ Text) (sink : Sink σ) (listener : Listener σ)

/-- A writer that has failed fails again when it is told to end. -/
theorem finish_of_failure {f : Failure} (h : t.failure = some f) (s : σ) :
    finish convert sink listener (t, s) = (.error f, (t, s)) := by
  rw [finish, Action.bind_apply, Action.ask_apply]
  simp only [h, Action.throw_apply]

/-- A writer that has ended without a failure may be told to end again. -/
theorem finish_of_ended (h : t.failure = none) (hended : t.ended = true) (s : σ) :
    finish convert sink listener (t, s) = (.ok (), (t, s)) := by
  rw [finish, Action.bind_apply, Action.ask_apply]
  simp only [h, hended, if_true, Action.pure_apply]

/-- What the writer does with a text that has been converted. -/
def deliver (sink : Sink σ) (listener : Listener σ) (t : Transaction) (converted : Text) (s : σ) :
    Except Failure Unit × Transaction × σ :=
  match sink.openWrite s with
  | (.error f, s₁) => (.error f, (t, s₁))
  | (.ok (), s₁) =>
    let r := (do sink.write converted; sink.commit converted; listener.onSuccess : Action σ Unit) s₁
    (r.1, ({ t with opened := true }, r.2))

/-- What the writer does when a text could not be converted. -/
def refuse (sink : Sink σ) (listener : Listener σ) (t : Transaction) (f : Failure) (s : σ) :
    Except Failure Unit × Transaction × σ :=
  match listener.onError f s with
  | (.error g, s₁) => (.error g, (t, s₁))
  | (.ok (), s₁) =>
    (.error (.unsaved (sink.path s₁) f), ({ t with failure := some (.unsaved (sink.path s₁) f) }, s₁))

/-- A writer that is open converts all that it took when it is told to end, and stores the result or
is refused. -/
theorem finish_of_open (h : t.failure = none) (hopen : t.ended = false) (s : σ) :
    finish convert sink listener (t, s) =
      match convert t.pieces.flatten s with
      | (.error f, s₁) => refuse sink listener { t with pieces := [], ended := true } f s₁
      | (.ok converted, s₁) =>
        deliver sink listener { t with pieces := [], ended := true } converted s₁ := by
  rw [finish, Action.bind_apply, Action.ask_apply]
  simp only [h, hopen, Bool.false_eq_true, if_false, Action.bind_apply, outside, inside,
    Action.on_apply, Action.change_apply, Action.attempt_apply]
  -- Both sides make the same calls in the same order, and stop at the first one that fails.
  rcases convert t.pieces.flatten s with ⟨f | converted, s₁⟩
  · simp only [refuse, Action.bind_apply, Action.on_apply, Action.ask_apply, Action.change_apply,
      Action.throw_apply]
    rcases listener.onError f s₁ with ⟨_ | _, s₂⟩ <;> rfl
  · simp only [deliver, Action.bind_apply, Action.on_apply, Action.change_apply]
    rcases sink.openWrite s₁ with ⟨_ | _, s₂⟩
    · rfl
    simp only []
    rcases sink.write converted s₂ with ⟨_ | _, s₃⟩
    · rfl
    simp only []
    rcases sink.commit converted s₃ with ⟨_ | _, s₄⟩ <;> rfl

end Transaction

/-! ## Programs that use a writer -/

/-- What is done with a writer. -/
inductive Program where
  /-- Nothing. -/
  | skip
  /-- The writer is given a piece of text. -/
  | write (text : Text)
  /-- The writer is told to end. -/
  | finish
  /-- Something else fails. -/
  | fail (cause : Failure)
  /-- One thing after the other, unless the first one fails. -/
  | seq (first second : Program)
  /-- A failure is caught. -/
  | attempt (body : Program)
  /-- The writer ends when the block is left, unless it is left with a failure. -/
  | block (body : Program)

namespace Program

/-- Runs a program, given what the two calls of a writer do. -/
def run {τ : Type} (write : Text → Action τ Unit) (finish : Action τ Unit) :
    Program → Action τ Unit
  | .skip => pure ()
  | .write text => write text
  | .finish => finish
  | .fail f => throw f
  | .seq first second => do
    first.run write finish
    second.run write finish
  | .attempt body => do
    let _ ← (body.run write finish).attempt
  | .block body => do
    body.run write finish
    finish

variable {σ τ : Type} (convert : Text → Action σ Text) (sink : Sink σ) (listener : Listener σ)

/-- Runs a program on a writer. -/
def carryOut (p : Program) : Action (Transaction × σ) Unit :=
  p.run Transaction.write (Transaction.finish convert sink listener)

/-- Runs a program on a writer, and records all calls. -/
def recorded (p : Program) : Action (Transaction × σ × List Event) Unit :=
  p.run (fun text => note (.write text) (Transaction.write text))
    (note .finish (Transaction.finish (fun text => record (.convert text) (convert text))
      sink.recorded listener.recorded))

/-- The calls that are made when a program runs on a writer, first one first. -/
def calls (t : Transaction) (s : σ) (p : Program) : List Event :=
  (p.recorded convert sink listener (t, s, [])).2.2.2

/-- The calls that are made when a program runs on a fresh writer. -/
def history (s : σ) (p : Program) : List Event := p.calls convert sink listener .fresh s

/-- Writes pieces of text one after the other, and then goes on with a program. -/
def writing (pieces : List Text) (rest : Program) : Program :=
  pieces.foldr (fun text p => .seq (.write text) p) rest

/-- The program that uses a writer once. -/
def ofUse : Transaction.Use → Program
  | .write text => .write text
  | .finish => .finish
  | .block pieces leave => .block (writing pieces (leave.elim .skip .fail))

variable {convert sink listener}

/-- Writing pieces in a program is writing them one after the other. -/
theorem run_writing {write : Text → Action τ Unit} {finish : Action τ Unit} (pieces : List Text)
    (rest : Program) :
    (writing pieces rest).run write finish
      = (do pieces.forM write; rest.run write finish) := by
  induction pieces with
  | nil => rfl
  | cons text pieces ih =>
    show (write text >>= fun _ => (writing pieces rest).run write finish) = _
    rw [ih]
    funext s
    -- The same actions, grouped from the left.
    show _ = ((write text >>= fun _ => pieces.forM write) >>= fun _ => rest.run write finish) s
    simp only [Action.bind_apply]
    rcases write text s with ⟨_ | _, s₁⟩ <;> rfl

/-- Every single use of a writer is a program. -/
theorem carryOut_ofUse (u : Transaction.Use) :
    (ofUse u).carryOut convert sink listener = Transaction.use convert sink listener u := by
  cases u with
  | write text => rfl
  | finish => rfl
  | block pieces leave =>
    rw [ofUse, carryOut, run, run_writing]
    funext s
    simp only [Transaction.use, Transaction.block, Action.bind_apply]
    -- where a piece is refused, it does not count how the block would have been left
    rcases pieces.forM Transaction.write s with ⟨_ | _, s₁⟩
    · rfl
    · cases leave <;> rfl

/-- What both calls of a writer keep, every program keeps. -/
theorem preserves_run {Q : τ → Prop} {write : Text → Action τ Unit} {finish : Action τ Unit}
    (hwrite : ∀ text, Preserves Q (write text)) (hfinish : Preserves Q finish) (p : Program) :
    Preserves Q (p.run write finish) := by
  induction p with
  | skip => exact Preserves.pure ()
  | write text => exact hwrite text
  | finish => exact hfinish
  | fail f => exact Preserves.throw f
  | seq first second ihf ihs => exact ihf.bind fun _ => ihs
  | attempt body ih =>
    -- The failure is caught, but what was done before it stays done.
    intro s hs
    exact ih s hs
  | block body ih => exact ih.bind fun _ => hfinish

end Program

/-! ## Recording changes nothing -/

section Forgetting

variable {σ α β : Type}

/-- A result without the record. -/
def forget (r : Except Failure α × Transaction × σ × List Event) :
    Except Failure α × Transaction × σ := (r.1, r.2.1, r.2.2.1)

/-- The first action does what the second one does, and records calls besides. -/
def Follows (a : Action (Transaction × σ × List Event) α) (b : Action (Transaction × σ) α) : Prop :=
  ∀ t s h, forget (a (t, s, h)) = b (t, s)

/-- What follows something step by step follows it as a whole. -/
theorem Follows.bind {a : Action (Transaction × σ × List Event) α}
    {b : Action (Transaction × σ) α} {k : α → Action (Transaction × σ × List Event) β}
    {l : α → Action (Transaction × σ) β} (hab : Follows a b) (hkl : ∀ x, Follows (k x) (l x)) :
    Follows (a >>= k) (b >>= l) := by
  intro t s h
  rw [Action.bind_apply, Action.bind_apply, ← hab t s h]
  rcases a (t, s, h) with ⟨f | x, t₁, s₁, h₁⟩
  · rfl
  · exact hkl x t₁ s₁ h₁

/-- What is put on record follows as before. -/
theorem follows_note {event : Except Failure α → Event}
    {a : Action (Transaction × σ × List Event) α} {b : Action (Transaction × σ) α}
    (hab : Follows a b) : Follows (note event a) b := by
  intro t s h
  rw [← hab t s h]
  rfl

theorem follows_write (text : Text) :
    Follows (Transaction.write text : Action (Transaction × σ × List Event) Unit)
      (Transaction.write text) := by
  intro t s h
  cases hf : t.failure with
  | some f =>
    rw [Transaction.write_of_failure hf, Transaction.write_of_failure hf]
    rfl
  | none =>
    cases he : t.ended with
    | true =>
      rw [Transaction.write_of_ended hf he, Transaction.write_of_ended hf he]
      rfl
    | false =>
      rw [Transaction.write_of_open hf he, Transaction.write_of_open hf he]
      rfl

variable (convert : Text → Action σ Text) (sink : Sink σ) (listener : Listener σ)

theorem follows_finish :
    Follows (Transaction.finish (fun text => record (.convert text) (convert text)) sink.recorded
      listener.recorded) (Transaction.finish convert sink listener) := by
  intro t s h
  cases hf : t.failure with
  | some f =>
    rw [Transaction.finish_of_failure _ _ _ hf, Transaction.finish_of_failure _ _ _ hf]
    rfl
  | none =>
    cases he : t.ended with
    | true =>
      rw [Transaction.finish_of_ended _ _ _ hf he, Transaction.finish_of_ended _ _ _ hf he]
      rfl
    | false =>
      -- The calls are the same, and each leaves the same state behind it.
      rw [Transaction.finish_of_open _ _ _ hf he, Transaction.finish_of_open _ _ _ hf he,
        record_apply]
      rcases convert t.pieces.flatten s with ⟨f | converted, s₁⟩
      · simp only [Transaction.refuse, Listener.recorded, Sink.recorded, record_apply]
        rcases listener.onError f s₁ with ⟨_ | _, s₂⟩ <;> rfl
      · simp only [Transaction.deliver, Listener.recorded, Sink.recorded, record_apply,
          Action.bind_apply]
        rcases sink.openWrite s₁ with ⟨_ | _, s₂⟩
        · rfl
        simp only [record_apply]
        rcases sink.write converted s₂ with ⟨_ | _, s₃⟩
        · rfl
        simp only [record_apply]
        rcases sink.commit converted s₃ with ⟨_ | _, s₄⟩ <;> rfl

/-- A run that is recorded gives what it gives otherwise. -/
theorem forget_recorded (p : Program) (t : Transaction) (s : σ) (h : List Event) :
    forget (p.recorded convert sink listener (t, s, h)) = p.carryOut convert sink listener (t, s) := by
  have hfollows : Follows (p.recorded convert sink listener)
      (p.carryOut convert sink listener) := by
    induction p with
    | skip => exact fun t s h => rfl
    | write text => exact follows_note (follows_write text)
    | finish => exact follows_note (follows_finish convert sink listener)
    | fail f => exact fun t s h => rfl
    | seq first second ihf ihs => exact ihf.bind fun _ => ihs
    | attempt body ih =>
      -- the failure of the body is dropped with and without the record
      intro t s h
      exact congrArg (fun r : Except Failure Unit × Transaction × σ =>
        ((.ok (), r.2) : Except Failure Unit × Transaction × σ)) (ih t s h)
    | block body ih =>
      exact ih.bind fun _ => follows_note (follows_finish convert sink listener)
  exact hfollows t s h

end Forgetting

end Dialects.Streams

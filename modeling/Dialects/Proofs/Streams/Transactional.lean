import Dialects.Proofs.Streams.History
import Dialects.Rehearsal.Writing

/-!
# What a transactional writer guarantees

The run of a writer goes through three phases: it collects what it is given, until it is told to
end; then it has either been refused by the conversion, or it has delivered what the conversion
gave as far as the store let it. A writer never comes back from the last two. Each phase says what
the calls up to now have been (`Phase`), and every call of the writer leads from a phase to a phase
(`preserves_phase_write`, `preserves_phase_finish`); the guarantees are read off the phases.

## Main definitions

* `Phase`: the state of a writer, with the calls that led to it;
* `Transactional`: the guarantees, of a list of calls.

## Main results

* `exists_phase`: after every program, the writer is in one of the phases;
* `transactional_history`: the guarantees hold of every program, and a block that is left with a
  failure leaves everything else as it is.
-/

namespace Dialects.Streams

open Dialects.Action

/-! ## The calls of a run -/

/-- The texts that the writer took, first one first. -/
def accepted : List Event → List Text
  | [] => []
  | .write text (.ok ()) :: h => text :: accepted h
  | _ :: h => accepted h

namespace Event

/-- The writer took a text. -/
def took (text : Text) : Event := .write text (.ok ())

/-- Who was called, and what for. -/
inductive Kind where
  | call
  | conversion
  | report
  | opening
  | filling
  | commit
  | announcement
  deriving DecidableEq

/-- The kind of a call. -/
def kind : Event → Kind
  | .write .. | .finish _ => .call
  | .convert .. => .conversion
  | .report _ => .report
  | .openStore _ => .opening
  | .fillStore .. => .filling
  | .commitStore .. => .commit
  | .announce _ => .announcement

/-- The writer was called, and failed. -/
inductive FailedWith (f : Failure) : Event → Prop where
  | write (text : Text) : FailedWith f (.write text (.error f))
  | finish : FailedWith f (.finish (.error f))

/-- The writer was called when it had ended, which did nothing. -/
inductive Idle : Event → Prop where
  | write (text : Text) : Idle (.write text (.error (.badValue "write after end")))
  | finish : Idle (.finish (.ok ()))

end Event

/-- How many calls of a kind there are. -/
def occurrences (k : Event.Kind) (h : List Event) : Nat := (h.map Event.kind).count k

/-- What a writer guarantees, of the calls in its run. -/
structure Transactional (h : List Event) : Prop where
  /-- There is no second conversion. -/
  converts_once : occurrences .conversion h ≤ 1
  /-- All that the writer took is converted, in its order. -/
  converts_accepted : ∀ text r, .convert text r ∈ h → text = (accepted h).flatten
  /-- The store is not opened a second time. -/
  opens_once : occurrences .opening h ≤ 1
  /-- The store is opened after a conversion that did not fail. -/
  opens_converted : ∀ r, .openStore r ∈ h →
    ∃ text converted, [.convert text (.ok converted), .openStore r].Sublist h
  /-- If the conversion fails, then this is reported once, the store is not opened in the whole run,
  and the call that asked for the conversion fails like every later call of the writer. -/
  refuses : ∀ text f, .convert text (.error f) ∈ h →
    occurrences .opening h = 0 ∧ occurrences .report h = 1 ∧
      ∃ before path later,
        h = before ++ .convert text (.error f) :: .report f
          :: .finish (.error (.unsaved path f)) :: later ∧
        ∀ e ∈ later, e.FailedWith (.unsaved path f)
  /-- There is no second announcement. -/
  announces_once : occurrences .announcement h ≤ 1
  /-- What is announced has been committed, and no failure was reported. -/
  announces_stored : ∀ r, .announce r ∈ h →
    (∃ text, [.commitStore text (.ok ()), .announce r].Sublist h) ∧ occurrences .report h = 0

/-! ## The phases of a run -/

/-- What can become of a text that has been converted: the calls that are made for it, and whether
the store is open after them. -/
inductive Delivery (converted : Text) : List Event → Bool → Prop where
  | shut (f : Failure) : Delivery converted [.openStore (.error f)] false
  | unfilled (f : Failure) :
    Delivery converted [.openStore (.ok ()), .fillStore converted (.error f)] true
  | uncommitted (f : Failure) :
    Delivery converted [.openStore (.ok ()), .fillStore converted (.ok ()),
      .commitStore converted (.error f)] true
  | stored (r : Except Failure Unit) :
    Delivery converted [.openStore (.ok ()), .fillStore converted (.ok ()),
      .commitStore converted (.ok ()), .announce r] true

/-- The state of a writer, with the calls that led to it. -/
inductive Phase : Transaction → List Event → Prop where
  /-- The writer takes what it is given. -/
  | collecting (pieces : List Text) : Phase ⟨pieces, false, none, false⟩ (pieces.map .took)
  /-- The conversion failed, and the writer fails ever since. -/
  | refused (pieces : List Text) (f : Failure) (path : String) (later : List Event)
    (hlater : ∀ e ∈ later, e.FailedWith (.unsaved path f)) :
    Phase ⟨[], false, some (.unsaved path f), true⟩
      (pieces.map .took ++ .convert pieces.flatten (.error f) :: .report f
        :: .finish (.error (.unsaved path f)) :: later)
  /-- The converted text was delivered, as far as the store let it, and the writer is idle. -/
  | settled (pieces : List Text) (converted : Text) (deeds : List Event) (opened : Bool)
    (r : Except Failure Unit) (later : List Event) (hdeeds : Delivery converted deeds opened)
    (hlater : ∀ e ∈ later, e.Idle) :
    Phase ⟨[], opened, none, true⟩
      (pieces.map .took ++ .convert pieces.flatten (.ok converted) :: deeds
        ++ .finish r :: later)

/-- What holds of the calls up to now, and of the next one, holds of them all. -/
theorem forall_concat {P : Event → Prop} {h : List Event} {e : Event} (hh : ∀ x ∈ h, P x)
    (he : P e) : ∀ x ∈ h ++ [e], P x := by
  intro x hmem
  rcases List.mem_append.mp hmem with hold | hnew
  · exact hh x hold
  · exact List.mem_singleton.mp hnew ▸ he

section Steps

variable {σ : Type}

/-- The writer is in one of its phases. -/
def InPhase (p : Transaction × σ × List Event) : Prop := Phase p.1 p.2.2

/-- A call to write keeps the writer in one of its phases. -/
theorem preserves_phase_write (text : Text) :
    Preserves (InPhase (σ := σ)) (note (.write text) (Transaction.write text)) := by
  rintro ⟨t, s, h⟩ (hphase : Phase t h)
  show Phase _ _
  rw [note_apply]
  cases hphase with
  | collecting pieces =>
    -- The only phase in which the text is taken; in the other two the call fails.
    rw [Transaction.write_of_open rfl rfl]
    have hcalls : (pieces ++ [text]).map Event.took = pieces.map .took ++ [.took text] :=
      List.map_append
    exact hcalls ▸ Phase.collecting (pieces ++ [text])
  | refused pieces f path later hlater =>
    rw [Transaction.write_of_failure rfl]
    simpa using Phase.refused pieces f path (later ++ [.write text (.error (.unsaved path f))])
      (forall_concat hlater (.write text))
  | settled pieces converted deeds opened r later hdeeds hlater =>
    rw [Transaction.write_of_ended rfl rfl]
    simpa using Phase.settled pieces converted deeds opened r
      (later ++ [.write text (.error (.badValue "write after end"))]) hdeeds
      (forall_concat hlater (.write text))

variable {convert : Text → Action σ Text} {sink : Sink σ} {listener : Listener σ}

/-- What the store holds can be read off the state: a commit that does not fail puts its text there,
where the listener leaves it. -/
structure Readable (sink : Sink σ) (listener : Listener σ) (content : σ → Option Text) : Prop where
  committed : ∀ text s, (sink.commit text s).1 = .ok () →
    content (sink.commit text s).2 = some text
  announced : ∀ s, content (listener.onSuccess s).2 = content s

variable (sink listener) in
/-- A converted text is delivered as far as the store lets it. A delivery that does not fail has
committed the text, and a text that has been committed is there. -/
theorem exists_delivery (converted : Text) (s : σ) (h : List Event) :
    ∃ deeds opened r s', Delivery converted deeds opened ∧
      (r = .ok () → .commitStore converted (.ok ()) ∈ deeds) ∧
      (∀ content, Readable sink listener content → .commitStore converted (.ok ()) ∈ deeds →
        content s' = some converted) ∧
      Transaction.deliver sink.recorded listener.recorded ⟨[], false, none, true⟩ converted (s, h)
        = (r, ⟨[], opened, none, true⟩, s', h ++ deeds) := by
  simp only [Transaction.deliver, Sink.recorded, Listener.recorded, record_apply]
  rcases sink.openWrite s with ⟨f | ⟨⟩, s₁⟩
  · exact ⟨_, _, .error f, s₁, .shut f, fun hok => (by cases hok), by simp, rfl⟩
  -- From here on the store is open, whatever comes of it.
  simp only [record_apply, Action.bind_apply]
  rcases sink.write converted s₁ with ⟨f | ⟨⟩, s₂⟩
  · exact ⟨_, _, .error f, s₂, .unfilled f, fun hok => (by cases hok), by simp, by simp⟩
  simp only [record_apply]
  rcases hcommit : sink.commit converted s₂ with ⟨f | ⟨⟩, s₃⟩
  · exact ⟨_, _, .error f, s₃, .uncommitted f, fun hok => (by cases hok), by simp, by simp⟩
  · refine ⟨_, _, (listener.onSuccess s₃).1, (listener.onSuccess s₃).2,
      .stored (listener.onSuccess s₃).1, by simp, ?_, by simp⟩
    intro content hread _
    rw [hread.announced]
    simpa [hcommit] using hread.committed converted s₂

/-- A call to end keeps the writer in one of its phases, if the listener does not fail. -/
theorem preserves_phase_finish (hreport : ∀ f s, (listener.onError f s).1 = .ok ()) :
    Preserves (InPhase (σ := σ)) (note .finish (Transaction.finish
      (fun text => record (.convert text) (convert text)) sink.recorded listener.recorded)) := by
  rintro ⟨t, s, h⟩ (hphase : Phase t h)
  show Phase _ _
  rw [note_apply]
  cases hphase with
  | collecting pieces =>
    -- The one call that leads from a phase to another: the writer converts what it took.
    rw [Transaction.finish_of_open _ _ _ rfl rfl, record_apply]
    rcases convert pieces.flatten s with ⟨f | converted, s₁⟩
    · -- A report that failed would leave a writer that has ended and forgets why.
      have htold := hreport f s₁
      simp only [Transaction.refuse, Listener.recorded, Sink.recorded, record_apply]
      rcases hcall : listener.onError f s₁ with ⟨_ | ⟨⟩, s₂⟩
      · rw [hcall] at htold
        cases htold
      · simpa using Phase.refused pieces f (sink.path s₂) [] (by simp)
    · obtain ⟨deeds, opened, r, s₂, hdeeds, -, -, heq⟩ := exists_delivery sink listener converted s₁
        (pieces.map Event.took ++ [.convert pieces.flatten (.ok converted)])
      simp only [heq]
      simpa using Phase.settled pieces converted deeds opened r [] hdeeds (by simp)
  | refused pieces f path later hlater =>
    rw [Transaction.finish_of_failure _ _ _ rfl]
    simpa using Phase.refused pieces f path (later ++ [.finish (.error (.unsaved path f))])
      (forall_concat hlater .finish)
  | settled pieces converted deeds opened r later hdeeds hlater =>
    rw [Transaction.finish_of_ended _ _ _ rfl rfl]
    simpa using Phase.settled pieces converted deeds opened r (later ++ [.finish (.ok ())]) hdeeds
      (forall_concat hlater .finish)

variable (convert sink) in
/-- After every program, the writer is in one of its phases. -/
theorem exists_phase (hreport : ∀ f s, (listener.onError f s).1 = .ok ()) (s : σ) (p : Program) :
    ∃ t, Phase t (p.history convert sink listener s) :=
  ⟨_, Program.preserves_run preserves_phase_write (preserves_phase_finish hreport) p
    (.fresh, s, []) (.collecting [])⟩

end Steps

/-! ## What the phases say -/

/-- What has been accepted in two parts has been accepted in both. -/
theorem accepted_append (h h' : List Event) : accepted (h ++ h') = accepted h ++ accepted h' := by
  induction h using accepted.induct with
  | case1 => rfl
  | case2 text h ih => simp [accepted, ih]
  | case3 e h hne ih => simp [accepted, ih]

/-- Pieces that the writer took have been accepted. -/
@[simp]
theorem accepted_took (pieces : List Text) : accepted (pieces.map .took) = pieces := by
  induction pieces with
  | nil => rfl
  | cons text pieces ih => exact congrArg (text :: ·) ih

/-- Nothing has been accepted where no piece was taken. -/
theorem accepted_eq_nil {h : List Event} (hh : ∀ text, .took text ∉ h) : accepted h = [] := by
  induction h using accepted.induct with
  | case1 => rfl
  | case2 text h ih => exact absurd List.mem_cons_self (hh text)
  | case3 e h hne ih => simpa [accepted] using ih fun text => (hh text ∘ List.mem_cons_of_mem e)

/-- Calls of the writer that it did not heed. -/
def Unheeded (later : List Event) : Prop := ∀ e ∈ later, e.kind = .call ∧ ∀ text, e ≠ .took text

/-- Calls that all fail with one failure are not heeded. -/
theorem unheeded_of_failed {f : Failure} {later : List Event}
    (hlater : ∀ e ∈ later, e.FailedWith f) : Unheeded later := by
  intro e he
  cases hlater e he with
  | write text => exact ⟨rfl, by simp [Event.took]⟩
  | finish => exact ⟨rfl, by simp [Event.took]⟩

/-- Calls that do nothing are not heeded. -/
theorem unheeded_of_idle {later : List Event} (hlater : ∀ e ∈ later, e.Idle) :
    Unheeded later := by
  intro e he
  cases hlater e he with
  | write text => exact ⟨rfl, by simp [Event.took]⟩
  | finish => exact ⟨rfl, by simp [Event.took]⟩

/-- While pieces are collected only calls happen. -/
theorem occurrences_took {k : Event.Kind} (hk : k ≠ .call) (pieces : List Text) :
    occurrences k (pieces.map .took) = 0 := by
  refine List.count_eq_zero.mpr fun hmem => ?_
  obtain ⟨text, -, htext⟩ := List.mem_map.mp (List.map_map (f := Event.took) ▸ hmem)
  exact hk htext.symm

/-- While pieces are collected nothing but calls happens. -/
theorem notMem_took {e : Event} (he : e.kind ≠ .call) (pieces : List Text) :
    e ∉ pieces.map .took := by
  intro hmem
  obtain ⟨text, -, rfl⟩ := List.mem_map.mp hmem
  exact he rfl

section Around

variable {pieces : List Text} {middle later : List Event}

/-- Only what happens when the writer ends counts for what it calls. -/
theorem occurrences_around {k : Event.Kind} (hk : k ≠ .call) (hlater : Unheeded later) :
    occurrences k (pieces.map .took ++ middle ++ later) = occurrences k middle := by
  -- what happens later are only calls
  have hafter : occurrences k later = 0 := by
    refine List.count_eq_zero.mpr fun hmem => ?_
    obtain ⟨e, he, hkind⟩ := List.mem_map.mp hmem
    exact hk (hkind ▸ (hlater e he).1)
  have happend (h h' : List Event) :
      occurrences k (h ++ h') = occurrences k h + occurrences k h' := by
    simp [occurrences]
  rw [happend, happend, occurrences_took hk, hafter, Nat.zero_add, Nat.add_zero]

/-- Apart from calls only what happens when the writer ends counts. -/
theorem mem_around {e : Event} (he : e.kind ≠ .call) (hlater : Unheeded later) :
    e ∈ pieces.map .took ++ middle ++ later ↔ e ∈ middle := by
  constructor
  · intro hmem
    simp only [List.mem_append] at hmem
    rcases hmem with (hbefore | hmiddle) | hafter
    · exact absurd hbefore (notMem_took he pieces)
    · exact hmiddle
    · exact absurd (hlater e hafter).1 he
  · intro hmiddle
    exact List.mem_append_left _ (List.mem_append_right _ hmiddle)

/-- The pieces that were collected have been accepted. -/
theorem accepted_around (hmiddle : ∀ text, .took text ∉ middle) (hlater : Unheeded later) :
    accepted (pieces.map .took ++ middle ++ later) = pieces := by
  have hafter : ∀ text, .took text ∉ later := fun text hmem => (hlater _ hmem).2 text rfl
  simp [accepted_append, accepted_eq_nil hmiddle, accepted_eq_nil hafter]

/-- What happens in an order when the writer ends happens in this order. -/
theorem sublist_around {l : List Event} (hl : l.Sublist middle) :
    l.Sublist (pieces.map .took ++ middle ++ later) :=
  (hl.trans (List.sublist_append_right _ _)).trans (List.sublist_append_left _ _)

end Around

/-- A writer that only collects is transactional. -/
theorem transactional_collecting (pieces : List Text) : Transactional (pieces.map .took) where
  converts_once := by simp [occurrences_took]
  converts_accepted text r hmem := absurd hmem (notMem_took (by simp [Event.kind]) pieces)
  opens_once := by simp [occurrences_took]
  opens_converted r hmem := absurd hmem (notMem_took (by simp [Event.kind]) pieces)
  refuses text f hmem := absurd hmem (notMem_took (by simp [Event.kind]) pieces)
  announces_once := by simp [occurrences_took]
  announces_stored r hmem := absurd hmem (notMem_took (by simp [Event.kind]) pieces)

/-- A writer that refuses its text is transactional. -/
theorem transactional_refused {pieces : List Text} {f : Failure} {path : String}
    {later : List Event} (hlater : ∀ e ∈ later, e.FailedWith (.unsaved path f)) :
    Transactional (pieces.map .took ++ [.convert pieces.flatten (.error f), .report f,
      .finish (.error (.unsaved path f))] ++ later) := by
  -- All that is asked of the history is asked of the three calls in the middle of it.
  have hunheeded := unheeded_of_failed hlater
  constructor
  case converts_once =>
    rw [occurrences_around (by decide) hunheeded]
    exact Nat.le_refl 1
  case converts_accepted =>
    intro text r hmem
    rw [mem_around (by simp [Event.kind]) hunheeded] at hmem
    rw [accepted_around (by simp [Event.took]) hunheeded]
    simp_all
  case opens_once =>
    rw [occurrences_around (by decide) hunheeded]
    exact Nat.zero_le 1
  case opens_converted =>
    intro r hmem
    rw [mem_around (by simp [Event.kind]) hunheeded] at hmem
    simp at hmem
  case refuses =>
    intro text g hmem
    rw [mem_around (by simp [Event.kind]) hunheeded] at hmem
    obtain ⟨rfl, rfl⟩ : text = pieces.flatten ∧ g = f := by simpa using hmem
    rw [occurrences_around (by decide) hunheeded, occurrences_around (by decide) hunheeded]
    exact ⟨rfl, rfl, pieces.map .took, path, later, by simp, hlater⟩
  case announces_once =>
    rw [occurrences_around (by decide) hunheeded]
    exact Nat.zero_le 1
  case announces_stored =>
    intro r hmem
    rw [mem_around (by simp [Event.kind]) hunheeded] at hmem
    simp at hmem

/-- A writer that delivers its text is transactional, as far as the store lets it. -/
theorem transactional_settled (pieces : List Text) {converted : Text} {deeds : List Event}
    {opened : Bool} {r : Except Failure Unit} {later : List Event}
    (hdeeds : Delivery converted deeds opened) (hlater : ∀ e ∈ later, e.Idle) :
    Transactional (pieces.map .took ++ (.convert pieces.flatten (.ok converted) :: deeds
      ++ [.finish r]) ++ later) := by
  -- The calls in the middle depend on how far the delivery came.
  have hunheeded := unheeded_of_idle hlater
  constructor
  case converts_once =>
    rw [occurrences_around (by decide) hunheeded]
    cases hdeeds <;> exact Nat.le_refl 1
  case converts_accepted =>
    intro text r hmem
    rw [mem_around (by simp [Event.kind]) hunheeded] at hmem
    rw [accepted_around (by cases hdeeds <;> simp [Event.took]) hunheeded]
    cases hdeeds <;> simp_all
  case opens_once =>
    rw [occurrences_around (by decide) hunheeded]
    cases hdeeds <;> exact Nat.le_refl 1
  case opens_converted =>
    intro r hmem
    rw [mem_around (by simp [Event.kind]) hunheeded] at hmem
    refine ⟨pieces.flatten, converted, sublist_around ?_⟩
    cases hdeeds <;> simp_all
  case refuses =>
    intro text g hmem
    rw [mem_around (by simp [Event.kind]) hunheeded] at hmem
    cases hdeeds <;> simp at hmem
  case announces_once =>
    rw [occurrences_around (by decide) hunheeded]
    cases hdeeds
    case stored => exact Nat.le_refl 1
    all_goals exact Nat.zero_le 1
  case announces_stored =>
    intro r hmem
    rw [mem_around (by simp [Event.kind]) hunheeded] at hmem
    rw [occurrences_around (by decide) hunheeded]
    -- Only a commit that did not fail is announced.
    cases hdeeds with
    | stored r' =>
      obtain rfl : r = r' := by simpa using hmem
      refine ⟨⟨converted, sublist_around (.cons _ (.cons _ (.cons _ ?_)))⟩, rfl⟩
      exact ((List.nil_sublist _).cons_cons _).cons_cons _
    | _ => simp at hmem

/-- In each of its phases a writer is transactional. -/
theorem Phase.transactional {t : Transaction} {h : List Event} (hphase : Phase t h) :
    Transactional h := by
  cases hphase with
  | collecting pieces => exact transactional_collecting pieces
  | refused pieces f path later hlater => simpa using transactional_refused hlater
  | settled pieces converted deeds opened r later hdeeds hlater =>
    simpa using transactional_settled pieces (r := r) hdeeds hlater

/-! ## Blocks that are left with a failure -/

section Leaving

variable {σ : Type} {convert : Text → Action σ Text} {sink : Sink σ} {listener : Listener σ}

/-- A program that did not tell the writer to end has only given it texts, and has changed nothing
else. -/
theorem unended_calls (p : Program) (t : Transaction) (s : σ)
    (hunended : ∀ r, .finish r ∉ p.calls convert sink listener t s) :
    (p.carryOut convert sink listener (t, s)).2.2 = s ∧
      ∀ e ∈ p.calls convert sink listener t s, e.kind = .call := by
  -- Once the writer was told to end, nothing is asked of the rest of the run.
  let Unended (q : Transaction × σ × List Event) : Prop :=
    (∀ r, .finish r ∉ q.2.2) → q.2.1 = s ∧ ∀ e ∈ q.2.2, e.kind = .call
  have hkept : Preserves Unended (p.recorded convert sink listener) := by
    refine Program.preserves_run (fun text => ?_) ?_ p
    · rintro ⟨t₁, s₁, h₁⟩ hold hunended
      simp only [note_apply, Transaction.write_outside] at hunended ⊢
      obtain ⟨hs, hcalls⟩ := hold fun r hr => hunended r (List.mem_append_left _ hr)
      exact ⟨hs, forall_concat hcalls rfl⟩
    · intro q hold hunended
      exact absurd (List.mem_append_right _ (List.mem_singleton_self _)) (hunended _)
  have hrun := hkept (t, s, []) (fun _ => ⟨rfl, by simp⟩) hunended
  rw [← forget_recorded convert sink listener p t s []]
  exact hrun

/-- A block whose body fails does what its body does. -/
theorem run_block_of_error {τ : Type} {write : Text → Action τ Unit} {finish : Action τ Unit}
    {body : Program} {s : τ} {f : Failure} (hbody : (body.run write finish s).1 = .error f) :
    (Program.block body).run write finish s = body.run write finish s := by
  rw [Program.run, Action.bind_apply]
  rcases hrun : body.run write finish s with ⟨g | x, s'⟩
  · rfl
  · rw [hrun] at hbody
    cases hbody

/-- A block that is left with a failure, without having told the writer to end, leaves everything
but the writer as it is. -/
theorem block_unended {body : Program} {t : Transaction} {s : σ} {f : Failure}
    (hfailed : (body.carryOut convert sink listener (t, s)).1 = .error f)
    (hunended : ∀ r, .finish r ∉ body.calls convert sink listener t s) :
    ((Program.block body).carryOut convert sink listener (t, s)).1 = .error f ∧
      ((Program.block body).carryOut convert sink listener (t, s)).2.2 = s ∧
      ∀ e ∈ (Program.block body).calls convert sink listener t s, e.kind = .call := by
  -- The recorded run fails as the run does, so that the block makes no call of its own in either.
  have hrecorded : (body.recorded convert sink listener (t, s, [])).1 = .error f := by
    rw [← hfailed, ← forget_recorded convert sink listener body t s []]
    rfl
  have hsame : (Program.block body).carryOut convert sink listener (t, s)
      = body.carryOut convert sink listener (t, s) := run_block_of_error hfailed
  have hcalls : (Program.block body).calls convert sink listener t s
      = body.calls convert sink listener t s :=
    congrArg (fun r => r.2.2.2) (run_block_of_error hrecorded)
  rw [hsame, hcalls]
  exact ⟨hfailed, unended_calls body t s hunended⟩

/-- The guarantees hold of every program, if the listener does not fail when it is told of a
failure. A block that is left with a failure leaves everything but the writer as it is, unless the
writer was told to end in it. The calls are those of the run: recording them changes nothing. -/
theorem transactional_history (hreport : ∀ f s, (listener.onError f s).1 = .ok ()) (s : σ)
    (p : Program) :
    Transactional (p.history convert sink listener s) ∧
      (∀ body t s₁ f, (body.carryOut convert sink listener (t, s₁)).1 = .error f →
        (∀ r, .finish r ∉ body.calls convert sink listener t s₁) →
        ((Program.block body).carryOut convert sink listener (t, s₁)).1 = .error f ∧
          ((Program.block body).carryOut convert sink listener (t, s₁)).2.2 = s₁ ∧
          ∀ e ∈ (Program.block body).calls convert sink listener t s₁, e.kind = .call) ∧
      forget (p.recorded convert sink listener (.fresh, s, []))
        = p.carryOut convert sink listener (.fresh, s) := by
  obtain ⟨t, hphase⟩ := exists_phase convert sink hreport s p
  refine ⟨hphase.transactional, ?_, forget_recorded convert sink listener p .fresh s []⟩
  -- the second part holds in every state, whatever came before the block
  intro body t s₁ f hfailed hunended
  exact block_unended hfailed hunended

end Leaving

/-- A writer whose conversion refuses everything. -/
def refusing : Rehearsal.WriterSettings :=
  ⟨fun _ => .error (.pipeline "refused"), true, true⟩

/-- A writer is given a piece in a block that is left with a failure, then told to end, and then
given another piece. -/
def threeUses : Program :=
  .seq (.attempt (.block (.seq (.write (Text.ofString "a")) (.fail (.interrupted "left")))))
    (.seq (.attempt .finish) (.write (Text.ofString "b")))

/-- A writer whose conversion is refused reports this once, fails to end, and then refuses any other
text with the same failure. -/
theorem transactional_threeUses :
    (∀ f s, (refusing.listener.onError f s).1 = .ok ()) ∧
      threeUses.history refusing.convert Rehearsal.WriterSettings.sink refusing.listener
          (.setUp "/p" [] [])
        = [.took (Text.ofString "a"), .convert (Text.ofString "a") (.error (.pipeline "refused")),
          .report (.pipeline "refused"),
          .finish (.error (.unsaved "/p" (.pipeline "refused"))),
          .write (Text.ofString "b") (.error (.unsaved "/p" (.pipeline "refused")))] ∧
      Transactional (threeUses.history refusing.convert Rehearsal.WriterSettings.sink
        refusing.listener (.setUp "/p" [] [])) :=
  ⟨fun _ _ => rfl, rfl, (transactional_history (fun _ _ => rfl) _ _).1⟩

end Dialects.Streams

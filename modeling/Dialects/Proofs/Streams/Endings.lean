import Dialects.Proofs.Storage.Memory
import Dialects.Proofs.Streams.Transactional

/-!
# What it means that a writer has ended

Who is told that a writer has ended may forget the text: it is stored by then. A writer keeps to
this when it ends for the first time. It does not when that fails without storing anything: the
conversion failed and so did the listener when it was told, or the store could not be opened, filled
or committed. The writer has ended then, and has nothing left to store; and when it is told to end
again, or a block in which it is used is left, it says that it has ended.

## Main definitions

* `Holds`: after some calls the store holds a text;
* `Truthful`: whenever the writer says that it has ended, the store holds what was asked for;
* `Overlooked`: the writer says that it has ended although ending has failed with nothing stored.

## Main results

* `exists_course`: a writer has not ended, or has done so once;
* `truthful_iff`: nothing but what is overlooked stands between a writer and the truth.
-/

namespace Dialects.Streams

open Dialects.Action

/-- The call is one of the store. -/
def Event.OnStore (e : Event) : Prop := e.kind = .opening ∨ e.kind = .filling ∨ e.kind = .commit

/-- After these calls the store holds a text: it kept the text when it was told to, and has been
left alone since. -/
def Holds (text : Text) (h : List Event) : Prop :=
  ∃ before after, h = before ++ .commitStore text (.ok ()) :: after ∧ ∀ e ∈ after, ¬ e.OnStore

/-- Whenever the writer says that it has ended, the store holds what the conversion has made of all
that the writer took. -/
def Truthful (h : List Event) : Prop :=
  ∀ before later, h = before ++ .finish (.ok ()) :: later →
    ∃ converted, .convert (accepted before).flatten (.ok converted) ∈ before ∧
      Holds converted before

/-- The writer failed to end, and nothing has been stored. -/
def Unstored (h : List Event) : Prop :=
  (∃ f, .finish (.error f) ∈ h) ∧ ∀ text, .commitStore text (.ok ()) ∉ h

/-- The writer says that it has ended although it failed to before, with nothing stored. -/
def Overlooked (h : List Event) : Prop :=
  ∃ before later, h = before ++ .finish (.ok ()) :: later ∧ Unstored before

/-! ## The course of a writer -/

/-- What a writer does with a text when it ends: the calls that it makes, and what ending gives. -/
inductive Ending (text : Text) : List Event → Except Failure Unit → Prop where
  /-- The text could not be converted, and the writer fails even if the listener does not. -/
  | refused (f g : Failure) : Ending text [.convert text (.error f), .report f] (.error g)
  /-- The converted text was delivered as far as the store let it. -/
  | delivered {converted : Text} {deeds : List Event} {opened : Bool} {r : Except Failure Unit}
    (hdeeds : Delivery converted deeds opened)
    (hstored : r = .ok () → .commitStore converted (.ok ()) ∈ deeds) :
    Ending text (.convert text (.ok converted) :: deeds) r

namespace Ending

variable {text : Text} {calls : List Event} {r : Except Failure Unit}

/-- What a writer does when it ends, it does not do to itself. -/
theorem kind_ne_call (hending : Ending text calls r) : ∀ e ∈ calls, e.kind ≠ .call := by
  cases hending with
  | refused f g => simp [Event.kind]
  | delivered hdeeds hstored => cases hdeeds <;> simp [Event.kind]

/-- A text that has been stored is what the conversion gave, and the store holds it. -/
theorem holds (hending : Ending text calls r) {stored : Text}
    (hmem : .commitStore stored (.ok ()) ∈ calls) :
    .convert text (.ok stored) ∈ calls ∧ Holds stored calls := by
  -- only what has been converted reaches the store, and it is committed in one way only
  cases hending with
  | refused f g => simp at hmem
  | delivered hdeeds hstored =>
    cases hdeeds with
    | stored r' =>
      obtain rfl : stored = _ := by simpa using hmem
      refine ⟨List.mem_cons_self, [.convert text (.ok stored), .openStore (.ok ()),
        .fillStore stored (.ok ())], [.announce r'], rfl, ?_⟩
      simp [Event.OnStore, Event.kind]
    | _ => simp at hmem

/-- A writer that fails to end without storing the text leaves the first call that tells so. -/
theorem eq_error (hending : Ending text calls r)
    (hlost : ∀ stored, .commitStore stored (.ok ()) ∉ calls) : ∃ f, r = .error f := by
  cases hending with
  | refused f g => exact ⟨g, rfl⟩
  | delivered hdeeds hstored =>
    rcases r with f | ⟨⟩
    · exact ⟨f, rfl⟩
    · exact absurd (List.mem_cons_of_mem _ (hstored rfl)) (hlost _)

end Ending

/-- What the store holds stays there while no call is heeded. -/
theorem Holds.append {text : Text} {h later : List Event} (hheld : Holds text h)
    (hlater : Unheeded later) : Holds text (h ++ later) := by
  obtain ⟨before, after, rfl, hafter⟩ := hheld
  refine ⟨before, after ++ later, by simp, fun e he => ?_⟩
  rcases List.mem_append.mp he with hold | hnew
  · exact hafter e hold
  · simp [Event.OnStore, (hlater e hnew).1]

section Course

variable {σ : Type} (sink : Sink σ) (listener : Listener σ)

/-- The state of a writer and of its surroundings, with the calls that led there: the writer takes
what it is given until it ends, and then heeds no call any more. -/
inductive Course : Transaction × σ × List Event → Prop where
  | collecting (pieces : List Text) (s : σ) :
    Course (⟨pieces, false, none, false⟩, s, pieces.map .took)
  | ended (pieces : List Text) {t : Transaction} {s : σ} {calls later : List Event}
    {r : Except Failure Unit} (hended : t.ended = true) (hending : Ending pieces.flatten calls r)
    (hlater : Unheeded later)
    (hheld : ∀ content converted, Readable sink listener content →
      .commitStore converted (.ok ()) ∈ calls → content s = some converted) :
    Course (t, s, pieces.map .took ++ calls ++ .finish r :: later)

variable {sink listener} {convert : Text → Action σ Text}

theorem unheeded_nil : Unheeded [] := by simp [Unheeded]

/-- Nothing comes of a call of a writer that has ended. -/
theorem Unheeded.concat {later : List Event} {e : Event} (hlater : Unheeded later)
    (he : e.kind = .call) (htook : ∀ text, e ≠ .took text) : Unheeded (later ++ [e]) :=
  forall_concat hlater ⟨he, htook⟩

/-- A call to write keeps the writer on its course. -/
theorem preserves_course_write (text : Text) :
    Preserves (Course sink listener) (note (.write text) (Transaction.write text)) := by
  intro p hcourse
  rw [note_apply]
  cases hcourse with
  | collecting pieces s =>
    rw [Transaction.write_of_open rfl rfl]
    have hcalls : (pieces ++ [text]).map Event.took = pieces.map .took ++ [.took text] :=
      List.map_append
    exact hcalls ▸ Course.collecting (pieces ++ [text]) s
  | @ended pieces t s calls later r hended hending hlater hheld =>
    -- The text is not taken, whether or not the writer remembers why it has ended.
    obtain ⟨f, hrun⟩ : ∃ f, Transaction.write text
        (t, s, pieces.map .took ++ calls ++ .finish r :: later)
          = (.error f, t, s, pieces.map .took ++ calls ++ .finish r :: later) := by
      cases hf : t.failure with
      | some f => exact ⟨f, Transaction.write_of_failure hf text _⟩
      | none => exact ⟨_, Transaction.write_of_ended hf hended text _⟩
    rw [hrun]
    simpa using Course.ended pieces hended hending
      (hlater.concat (e := .write text (.error f)) rfl (by simp [Event.took])) hheld

variable (sink listener) in
/-- A conversion that failed is reported, and the writer fails, for that reason or because the
listener does. -/
theorem exists_refusal (f : Failure) (s : σ) (h : List Event) :
    ∃ g t s', t.ended = true ∧
      Transaction.refuse sink.recorded listener.recorded ⟨[], false, none, true⟩ f (s, h)
        = (.error g, t, s', h ++ [.report f]) := by
  simp only [Transaction.refuse, Listener.recorded, Sink.recorded, record_apply]
  rcases listener.onError f s with ⟨g | ⟨⟩, s'⟩
  · exact ⟨g, ⟨[], false, none, true⟩, s', rfl, rfl⟩
  · exact ⟨_, ⟨[], false, some _, true⟩, s', rfl, rfl⟩

/-- A call to end keeps the writer on its course. -/
theorem preserves_course_finish :
    Preserves (Course sink listener) (note .finish (Transaction.finish
      (fun text => record (.convert text) (convert text)) sink.recorded listener.recorded)) := by
  intro p hcourse
  rw [note_apply]
  cases hcourse with
  | collecting pieces s =>
    rw [Transaction.finish_of_open _ _ _ rfl rfl, record_apply]
    rcases convert pieces.flatten s with ⟨f | converted, s₁⟩
    · obtain ⟨g, t, s₂, hended, hrun⟩ := exists_refusal sink listener f s₁
        (pieces.map Event.took ++ [.convert pieces.flatten (.error f)])
      simp only [hrun]
      simpa using Course.ended (s := s₂) pieces hended (.refused f g) unheeded_nil (by simp)
    · obtain ⟨deeds, opened, r, s₂, hdeeds, hstored, hheld, hrun⟩ :=
        exists_delivery sink listener converted s₁
          (pieces.map Event.took ++ [.convert pieces.flatten (.ok converted)])
      simp only [hrun]
      have hending : Ending pieces.flatten (.convert pieces.flatten (.ok converted) :: deeds) r :=
        .delivered hdeeds hstored
      have hthere : ∀ content stored, Readable sink listener content →
          .commitStore stored (.ok ()) ∈ .convert pieces.flatten (.ok converted) :: deeds →
          content s₂ = some stored := by
        intro content stored hread hmem
        -- The only text that is committed is the one that the conversion gave.
        obtain rfl : stored = converted := by
          have := (hending.holds hmem).1
          cases hdeeds <;> simp_all
        exact hheld content hread (by simpa using hmem)
      simpa using Course.ended pieces (t := ⟨[], opened, none, true⟩) rfl hending unheeded_nil hthere
  | @ended pieces t s calls later r hended hending hlater hheld =>
    obtain ⟨r', hrun⟩ : ∃ r', Transaction.finish
        (fun text => record (.convert text) (convert text)) sink.recorded listener.recorded
        (t, s, pieces.map .took ++ calls ++ .finish r :: later)
          = (r', t, s, pieces.map .took ++ calls ++ .finish r :: later) := by
      cases hf : t.failure with
      | some f => exact ⟨_, Transaction.finish_of_failure _ _ _ hf _⟩
      | none => exact ⟨_, Transaction.finish_of_ended _ _ _ hf hended _⟩
    rw [hrun]
    simpa using Course.ended pieces hended hending
      (hlater.concat (e := .finish r') rfl (by simp [Event.took])) hheld

variable (convert sink listener) in
/-- After every program, the writer has not ended or has done so once. -/
theorem exists_course (s : σ) (p : Program) :
    Course sink listener (p.recorded convert sink listener (.fresh, s, [])).2 :=
  Program.preserves_run preserves_course_write preserves_course_finish p (.fresh, s, [])
    (.collecting [] s)

/-! ## What a writer says -/

/-- A call that is not among the first ones is among those that follow. -/
theorem exists_of_split {first rest before later : List Event} {e : Event} (hfirst : e ∉ first)
    (hsplit : first ++ rest = before ++ e :: later) :
    ∃ between, before = first ++ between ∧ rest = between ++ e :: later := by
  rcases List.append_eq_append_iff.mp hsplit with ⟨between, hbefore, hrest⟩ | ⟨more, heq, hlater⟩
  · exact ⟨between, hbefore, hrest⟩
  · cases more with
    | nil => exact ⟨[], by simpa using heq.symm, hlater.symm⟩
    | cons x more =>
      -- The call would be the next of the first ones.
      obtain rfl : e = x := (List.cons.inj hlater).1
      exact absurd (heq ▸ List.mem_append_right _ List.mem_cons_self) hfirst

/-- The calls up to the one in which the writer says that it has ended: it has ended before, or does
so with this call. -/
structure Spoken (before : List Event) (pieces : List Text) (calls rest : List Event)
    (r : Except Failure Unit) : Prop where
  calls_eq : before = pieces.map .took ++ calls ++ rest
  ending : Ending pieces.flatten calls r
  unheeded : Unheeded rest
  said : r = .ok () ∨ .finish r ∈ rest

/-- On its course a writer says that it has ended only after one ending. -/
theorem Course.spoken {p : Transaction × σ × List Event} (hcourse : Course sink listener p)
    {before later : List Event} (hsplit : p.2.2 = before ++ .finish (.ok ()) :: later) :
    ∃ calls rest r, Spoken before (accepted p.2.2) calls rest r := by
  cases hcourse with
  | collecting pieces s =>
    have hmem : .finish (.ok ()) ∈ pieces.map Event.took := by
      rw [show pieces.map Event.took = _ from hsplit]
      exact List.mem_append_right _ List.mem_cons_self
    simp [Event.took] at hmem
  | @ended pieces t s calls after r hended hending hafter hheld =>
    have hcalls : .finish (.ok ()) ∉ pieces.map Event.took ++ calls := by
      intro hmem
      rcases List.mem_append.mp hmem with htook | hmem
      · simp [Event.took] at htook
      · exact hending.kind_ne_call _ hmem rfl
    obtain ⟨rest, hbefore, hrest⟩ := exists_of_split hcalls hsplit
    have hall : Unheeded (.finish r :: after) := by
      intro e he
      rcases List.mem_cons.mp he with rfl | he
      · exact ⟨rfl, by simp [Event.took]⟩
      · exact hafter e he
    have hpieces : accepted (pieces.map .took ++ calls ++ .finish r :: after) = pieces :=
      accepted_around (fun text hmem => hending.kind_ne_call _ hmem rfl) hall
    refine ⟨calls, rest, r, ?_⟩
    rw [hpieces]
    refine ⟨hbefore, hending, fun e he => hall e (hrest ▸ List.mem_append_left _ he), ?_⟩
    -- It is said now for the first time, or the first time comes before.
    cases rest with
    | nil => exact .inl (Event.finish.inj (List.cons.inj hrest).1)
    | cons e rest => exact .inr ((List.cons.inj hrest).1 ▸ List.mem_cons_self)

namespace Spoken

variable {before calls rest : List Event} {pieces : List Text} {r : Except Failure Unit}

/-- What has been accepted are the pieces that the writer took. -/
theorem accepted_eq (hspoken : Spoken before pieces calls rest r) : accepted before = pieces := by
  rw [hspoken.calls_eq]
  exact accepted_around (fun text hmem => hspoken.ending.kind_ne_call _ hmem rfl) hspoken.unheeded

/-- Apart from calls all that has happened is part of the ending. -/
theorem mem_iff (hspoken : Spoken before pieces calls rest r) {e : Event} (he : e.kind ≠ .call) :
    e ∈ before ↔ e ∈ calls := by
  rw [hspoken.calls_eq]
  exact mem_around he hspoken.unheeded

/-- What has been stored is what was asked for, and it is still there. -/
theorem holds (hspoken : Spoken before pieces calls rest r) {stored : Text}
    (hmem : .commitStore stored (.ok ()) ∈ before) :
    .convert (accepted before).flatten (.ok stored) ∈ before ∧ Holds stored before := by
  -- what has happened before is the pieces, the ending and calls that nothing heeds
  rw [hspoken.mem_iff (by simp [Event.kind])] at hmem
  obtain ⟨hconverted, first, later, hcalls, hlater⟩ := hspoken.ending.holds hmem
  constructor
  · rw [hspoken.accepted_eq, hspoken.mem_iff (by simp [Event.kind])]
    exact hconverted
  · rw [hspoken.calls_eq]
    refine Holds.append ⟨pieces.map .took ++ first, later, ?_, hlater⟩ hspoken.unheeded
    rw [hcalls, List.append_assoc]

/-- If nothing has been stored, then the writer failed to end. -/
theorem unstored (hspoken : Spoken before pieces calls rest r)
    (hlost : ∀ stored, .commitStore stored (.ok ()) ∉ before) : Unstored before := by
  obtain ⟨f, rfl⟩ := hspoken.ending.eq_error fun stored hmem =>
    hlost stored ((hspoken.mem_iff (by simp [Event.kind])).mpr hmem)
  -- The first end failed, so that it is not the one in question.
  rcases hspoken.said with hok | hmem
  · cases hok
  · refine ⟨⟨f, ?_⟩, hlost⟩
    rw [hspoken.calls_eq]
    exact List.mem_append_right _ hmem

end Spoken

/-- A text that has been committed is in the store, as far as that can be read. -/
theorem Course.content_eq {p : Transaction × σ × List Event} (hcourse : Course sink listener p)
    {content : σ → Option Text} (hread : Readable sink listener content) {stored : Text}
    (hmem : .commitStore stored (.ok ()) ∈ p.2.2) : content p.2.1 = some stored := by
  -- while pieces are collected, nothing is stored
  cases hcourse with
  | collecting pieces s => exact absurd hmem (notMem_took (by simp [Event.kind]) pieces)
  | @ended pieces t s calls after r hended hending hafter hheld =>
    refine hheld content stored hread ?_
    rw [show pieces.map Event.took ++ calls ++ .finish r :: after
      = pieces.map Event.took ++ (calls ++ [.finish r]) ++ after by simp] at hmem
    simpa using (mem_around (by simp [Event.kind]) hafter).mp hmem

/-- A block that is left without a failure has told the writer to end, which did not fail. -/
theorem finish_mem_of_block {body : Program} {q : Transaction × σ × List Event}
    (hok : ((Program.block body).recorded convert sink listener q).1 = .ok ()) :
    .finish (.ok ()) ∈ ((Program.block body).recorded convert sink listener q).2.2.2 := by
  revert hok
  rw [Program.recorded, Program.run, Action.bind_apply]
  rcases Program.run _ _ body q with ⟨f | x, q'⟩ <;> intro hok
  · cases hok
  · simp only [note_apply] at hok ⊢
    exact List.mem_append_right _ (List.mem_singleton.mpr (congrArg Event.finish hok).symm)

variable (convert sink listener) in
/-- A writer tells the truth whenever it says that it has ended, except if it failed to before
without having stored anything. What it says is then true of the store itself, and it says so
whenever a block is left without a failure. -/
theorem truthful_iff (s : σ) (p : Program) :
    (Truthful (p.history convert sink listener s) ↔
        ¬ Overlooked (p.history convert sink listener s)) ∧
      (∀ content, Readable sink listener content → Truthful (p.history convert sink listener s) →
        .finish (.ok ()) ∈ p.history convert sink listener s →
        ∃ converted, .convert (accepted (p.history convert sink listener s)).flatten (.ok converted)
            ∈ p.history convert sink listener s ∧
          content (p.carryOut convert sink listener (.fresh, s)).2.2 = some converted) ∧
      ∀ body, ((Program.block body).carryOut convert sink listener (.fresh, s)).1 = .ok () →
        .finish (.ok ()) ∈ (Program.block body).history convert sink listener s := by
  have hcourse := exists_course sink listener convert s p
  refine ⟨⟨?_, fun hnot before later hsplit => ?_⟩, fun content hread htruth hsaid => ?_, ?_⟩
  · rintro htruth ⟨before, later, hsplit, -, hlost⟩
    obtain ⟨converted, -, first, after, hcalls, -⟩ := htruth before later hsplit
    exact hlost converted (hcalls ▸ List.mem_append_right _ List.mem_cons_self)
  · obtain ⟨calls, rest, r, hspoken⟩ := hcourse.spoken hsplit
    by_cases hstored : ∃ stored, .commitStore stored (.ok ()) ∈ before
    · obtain ⟨stored, hmem⟩ := hstored
      exact ⟨stored, hspoken.holds hmem⟩
    · exact absurd ⟨before, later, hsplit, hspoken.unstored (not_exists.mp hstored)⟩ hnot
  · obtain ⟨before, later, hsplit⟩ := List.append_of_mem hsaid
    obtain ⟨calls, rest, r, hspoken⟩ := hcourse.spoken hsplit
    obtain ⟨converted, hconverted, first, after, hcalls, -⟩ := htruth before later hsplit
    have hsub : ∀ e ∈ before, e ∈ p.history convert sink listener s :=
      fun e he => hsplit ▸ List.mem_append_left _ he
    refine ⟨converted, hsub _ ?_, ?_⟩
    · -- Nothing has been taken since.
      exact (hspoken.accepted_eq : accepted before = accepted (p.history convert sink listener s)) ▸
        hconverted
    · rw [← forget_recorded convert sink listener p .fresh s []]
      exact hcourse.content_eq hread
        (hsub _ (hcalls ▸ List.mem_append_right _ List.mem_cons_self))
  · intro body hok
    rw [← forget_recorded convert sink listener _ .fresh s []] at hok
    exact finish_mem_of_block hok

end Course

/-! ## A store that cannot be opened -/

/-- A writer whose conversion leaves every text as it is. -/
def copying : Rehearsal.WriterSettings := ⟨.ok, true, false⟩

/-- A writer is given a text, is told to end, whatever comes of it, and is told so again. -/
def endedTwice : Program :=
  .seq (.write (Text.ofString "new")) (.seq (.attempt .finish) .finish)

/-- The desk with a stored text. -/
def oldDesk (faults : List FileFault) : Rehearsal.Desk := .setUp "/p" (Text.ofString "old") faults

/-- What the file on the desk holds. -/
def stored (d : Rehearsal.Desk) : Option Text :=
  d.memory.files[0]?.bind fun f => d.memory.disk.lookup f.path

/-- A file in memory can be read while it is being used. -/
theorem readable_desk (w : Rehearsal.WriterSettings) :
    Readable Rehearsal.WriterSettings.sink w.listener stored where
  committed text d hok := by
    have hcommit : Rehearsal.WriterSettings.sink.commit text d
        = ((Memory.fileOperations.commit 0 text d.memory).1,
            { d with memory := (Memory.fileOperations.commit 0 text d.memory).2 }) := rfl
    rw [hcommit] at hok ⊢
    -- a commit that succeeds has found its file, and its text is on the disk
    cases hfile : d.memory.files[0]? with
    | none =>
      simp [Memory.fileOperations, Memory.check, Memory.file, Action.bind_apply, hfile] at hok
    | some f =>
      simp only [Memory.fileOperations, Memory.check, Memory.file, Memory.put, Action.bind_apply,
        Action.ask_apply, hfile, Action.pure_apply] at hok ⊢
      by_cases hfault : f.faults.contains .commit = true
      · rw [if_pos hfault] at hok
        cases hok
      · rw [if_neg hfault]
        simp [stored, hfile, Memory.lookup_update]
  announced d := by
    simp only [Rehearsal.WriterSettings.listener]
    cases w.tellsSuccess
    · rfl
    · cases w.successFails <;> rfl

/-- The calls when a text is written to a file and the writer is told to end twice. -/
def endedTwiceOn (faults : List FileFault) : List Event :=
  endedTwice.history copying.convert Rehearsal.WriterSettings.sink copying.listener (oldDesk faults)

/-- What the file holds after this. -/
def storedAfter (faults : List FileFault) : Option Text :=
  stored (endedTwice.carryOut copying.convert Rehearsal.WriterSettings.sink copying.listener
    (.fresh, oldDesk faults)).2.2

/-- If nothing fails, the writer may be told twice to end, and the file holds the new text. -/
theorem truthful_endedTwice :
    Truthful (endedTwiceOn []) ∧ storedAfter [] = some (Text.ofString "new") := by
  have hcalls : endedTwiceOn [] = [.took (Text.ofString "new"),
      .convert (Text.ofString "new") (.ok (Text.ofString "new")), .openStore (.ok ()),
      .fillStore (Text.ofString "new") (.ok ()), .commitStore (Text.ofString "new") (.ok ()),
      .announce (.ok ()), .finish (.ok ()), .finish (.ok ())] := rfl
  obtain ⟨hiff, hcontent, -⟩ := truthful_iff Rehearsal.WriterSettings.sink copying.listener
    copying.convert (oldDesk []) endedTwice
  have htruth : Truthful (endedTwiceOn []) := by
    -- no use has failed, so that nothing comes after a failure
    refine hiff.mpr ?_
    rintro ⟨before, later, hsplit, ⟨f, hfailed⟩, -⟩
    have hsplit' : endedTwiceOn [] = before ++ .finish (.ok ()) :: later := hsplit
    have hmem : .finish (.error f) ∈ endedTwiceOn [] := hsplit' ▸ List.mem_append_left _ hfailed
    simp [hcalls, Event.took] at hmem
  obtain ⟨converted, hconverted, hstored⟩ := hcontent stored (readable_desk copying) htruth
    (show .finish (.ok ()) ∈ endedTwiceOn [] by simp [hcalls])
  -- there is one conversion in the record
  obtain rfl : converted = Text.ofString "new" := by
    have hmem : .convert _ (.ok converted) ∈ endedTwiceOn [] := hconverted
    simp [hcalls, Event.took] at hmem
    exact hmem.2
  exact ⟨htruth, hstored⟩

/-- If the file cannot be opened, then the writer says the second time that it has ended, and the
file holds what it held before. -/
theorem not_truthful_endedTwice :
    ¬ Truthful (endedTwiceOn [.openWrite]) ∧
      storedAfter [.openWrite] = some (Text.ofString "old") := by
  refine ⟨fun htruth => ?_, rfl⟩
  -- an end without a fault would come with a text that has been committed, and there is none
  obtain ⟨converted, -, before, after, hcalls, -⟩ := htruth
    [.took (Text.ofString "new"), .convert (Text.ofString "new") (.ok (Text.ofString "new")),
      .openStore (.error FileFault.openWrite.failure),
      .finish (.error FileFault.openWrite.failure)] [] rfl
  have hmem : .commitStore converted (.ok ()) ∈ before ++ .commitStore converted (.ok ()) :: after :=
    List.mem_append_right _ List.mem_cons_self
  rw [← hcalls] at hmem
  simp [Event.took] at hmem

end Dialects.Streams

import Dialects.Proofs.Editor.Agreement
import Dialects.Proofs.Editor.Separation

/-!
# What is reported

Following a change of grammar gives an outcome, and the user is shown a notification about what
failed. Both should say the same: the outcome is a success exactly if nothing has been reported
(`Faithful`). Two things stand in the way. If a document goes from one lenient dialect to another,
then a failure to restore its canonical text is reported, and forgotten if the document can be shown
in the other dialect (`Overlooked`). And if the text of a document has been converted to the lenient
dialect but cannot be replaced, then this is not reported (`Unreported`).

Nothing is assumed about the state of the editor or about the host.

## Main results

* `turnLenient_tells`, `disable_reports`: what the two transitions report;
* `Grows.setGrammar`: no report is ever taken back, however deep changes are nested;
* `faithful_iff`: outcomes are faithful but for the two exceptions.
-/

namespace Dialects.Editor

open Dialects.Action

variable {σ κ α β γ : Type} {h : Host σ κ} {c : ControllerSettings} {e e' : Editor σ κ} {d : Nat}
  {doc : Document κ} {g : Grammar}

/-! ## Actions that report nothing -/

/-- The action leaves the notifications as they are, whether or not it fails. -/
def Silent (a : Action (Editor σ κ) α) : Prop := ∀ n, Preserves (fun e => e.notifications = n) a

namespace Silent

/-- A silent action leaves the notifications as they are. -/
theorem eq {a : Action (Editor σ κ) α} (ha : Silent a) (e : Editor σ κ) :
    (a e).2.notifications = e.notifications := ha e.notifications e rfl

theorem pure (x : α) : Silent (pure x : Action (Editor σ κ) α) := fun _ => Preserves.pure x

theorem throw (f : Failure) : Silent (throw f : Action (Editor σ κ) α) := fun _ => Preserves.throw f

theorem ask (f : Editor σ κ → α) : Silent (Action.ask f) := fun _ => Preserves.ask f

/-- Silent actions one after the other are silent. -/
theorem bind {a : Action (Editor σ κ) α} {k : α → Action (Editor σ κ) β} (ha : Silent a)
    (hk : ∀ x, Silent (k x)) : Silent (a >>= k) := fun n => (ha n).bind fun x => hk x n

/-- Trying a silent action out is silent. -/
theorem attempt {a : Action (Editor σ κ) α} (ha : Silent a) : Silent a.attempt :=
  fun n => (ha n).attempt

/-- Doing something silent with every item of a list is silent. -/
theorem mapM {k : γ → Action (Editor σ κ) β} (hk : ∀ x, Silent (k x)) (xs : List γ) :
    Silent (xs.mapM k) := fun n => Preserves.mapM (fun x => hk x n) xs

/-- What is done to the host is not shown to the user. -/
theorem outside (a : Action σ α) : Silent (outside a : Action (Editor σ κ) α) := by
  intro n e he
  rcases hr : a e.host with ⟨f | x, s⟩
  · rw [outside_of_error hr]
    exact he
  · rw [outside_of_ok hr]
    exact he

theorem modify (d : Nat) (f : Document κ → Document κ) :
    Silent (modify d f : Action (Editor σ κ) Unit) := fun _ => Preserves.change fun _ he => he

theorem track (d : Nat) (l : String) : Silent (track d l : Action (Editor σ κ) Unit) :=
  fun _ => Preserves.change fun _ he => he

theorem untrack (d : Nat) : Silent (untrack d : Action (Editor σ κ) Unit) :=
  fun _ => Preserves.change fun _ he => he

/-- A mark in the log is no report. -/
theorem mark (name : String) (told : Told) : Silent (mark name told : Action (Editor σ κ) Unit) :=
  fun _ => Preserves.change fun _ he => he

/-- Looking a document up reports nothing, also if there is none. -/
theorem document (d : Nat) : Silent (document d : Action (Editor σ κ) (Document κ)) := by
  refine bind (ask Editor.documents) fun docs => ?_
  cases docs[d]? with
  | none => exact throw _
  | some doc => exact pure doc

theorem lookUp (l : String) : Silent (lookUp h l) := by
  intro n e he
  exact he

theorem isModified (d : Nat) : Silent (isModified h d) :=
  (outside (h.checkModified d)).bind fun _ => (document d).bind fun _ => pure _

theorem setText (d : Nat) (t : Text) : Silent (setText h d t) :=
  (outside (h.checkEdit d)).bind fun _ => modify d _

theorem incoming (handle : Handle (Binding κ)) (t : Text) :
    Silent (handle.incoming (mapping h) t) := by
  induction handle with
  | file n => exact pure t
  | mapped inner b ih => exact ih.bind fun t' => outside (h.convert b.set .toLenient t')
  | forwarding inner ih => exact ih

/-- Reading through a mapped handle converts, and what fails then is left to the reader. -/
theorem read (handle : Handle (Binding κ)) : Silent (handle.read (files h) (mapping h)) :=
  (outside (h.files.read handle.base)).bind fun chunks => mapM (incoming handle) chunks

theorem load (d : Nat) : Silent (load h d) := by
  refine (outside (h.checkLoad d)).bind fun _ => (document d).bind fun doc => ?_
  cases doc.handle with
  | none => exact pure _
  | some handle => exact (read handle).bind fun _ => modify d _

/-- Converting the text of a document reports nothing, unless what is done with a failure does. -/
theorem transcode (d : Nat) (set : κ) (direction : Direction)
    {onError : Failure → Action (Editor σ κ) Unit} (honError : ∀ f, Silent (onError f)) :
    Silent (transcode h d set direction onError) := by
  have hget : Silent (Document.text <$> Editor.document d : Action (Editor σ κ) Text) := by
    rw [map_eq_pure_bind]
    exact (document d).bind fun doc => pure doc.text
  refine bind (hget.bind fun t => ?_) fun _ => modify d _
  refine (outside (h.convert set direction t)).attempt.bind fun r => ?_
  cases r with
  | error f => exact (honError f).bind fun _ => throw f
  | ok t => exact setText d t

theorem loadWhen (d : Nat) (b : Bool) : Silent (loadWhen h d b) := by
  rw [Editor.loadWhen]
  split
  · exact load d
  · exact pure ()

/-- Restoring the canonical text reports nothing by itself. -/
theorem restoreText (d : Nat) (l : String) (modified backed : Bool) :
    Silent (restoreText h c d l modified backed) := by
  rw [Editor.restoreText]
  split
  · exact (outside (h.converters l)).bind fun set =>
      transcode d set .toCanonical fun _ => pure ()
  · split
    · exact load d
    · exact pure ()

end Silent

/-! ## What the transitions report -/

/-- The text is converted to the lenient dialect, and then the document's text cannot be
replaced. -/
def Uneditable (h : Host σ κ) (d : Nat) (set : κ) (t : Text) (s : σ) : Prop :=
  ∃ t' s' f, h.convert set .toLenient t s = (.ok t', s') ∧ (h.checkEdit d s').1 = .error f

/-- The document is modified, so that its text has to be converted, and cannot be replaced. -/
def Unshowable (h : Host σ κ) (d : Nat) (l : String) (e : Editor σ κ) : Prop :=
  ∃ doc set s s', e.Holds d doc ∧ doc.modified = true ∧ h.converters l e.host = (.ok set, s) ∧
    h.checkModified d s = (.ok (), s') ∧ Uneditable h d set doc.text s'

/-- What becomes of the notifications when a document is to be shown in the lenient dialect: every
failure is reported, except if `hushed` holds. -/
structure Tells (hushed : Prop) (e : Editor σ κ)
    (r : Except Failure (Option Failure) × Editor σ κ) : Prop where
  shown : r.1 = .ok none → r.2.notifications = e.notifications
  loud : ∀ f, r.1 = .ok (some f) → ¬ hushed →
    r.2.notifications.count = e.notifications.count + 1
  quiet : hushed → ∃ f, r.1 = .ok (some f) ∧ r.2.notifications = e.notifications

/-- What is told depends only on the notifications before and on whether failures are hushed. -/
theorem Tells.congr {hushed hushed' : Prop} {e₁ : Editor σ κ}
    {r : Except Failure (Option Failure) × Editor σ κ} (ht : Tells hushed e₁ r)
    (hhushed : hushed' ↔ hushed) (hsame : e₁.notifications = e.notifications) :
    Tells hushed' e r := by
  refine ⟨fun hr => ?_, fun f hr hnot => ?_, fun hq => ?_⟩
  · rw [ht.shown hr, hsame]
  · rw [ht.loud f hr (mt hhushed.mpr hnot), hsame]
  · obtain ⟨f, hr, heq⟩ := ht.quiet (hhushed.mp hq)
    exact ⟨f, hr, heq.trans hsame⟩

/-- An action that fails altogether tells nothing. -/
theorem Tells.of_error {hushed : Prop} {r : Except Failure (Option Failure) × Editor σ κ}
    {f : Failure} (hr : r.1 = .error f) (hnot : ¬ hushed) : Tells hushed e r := by
  refine ⟨fun hok => ?_, fun f hok => ?_, fun hq => absurd hq hnot⟩
  · cases hr.symm.trans hok
  · cases hr.symm.trans hok

/-- A conversion that fails is reported; that the text cannot be replaced is not. -/
theorem transcode_reports (hdoc : e.Holds d doc) (set : κ) (source : String) :
    let r := transcode h d set .toLenient (report Notification.toLenientCategory source) e
    (r.1 = .ok () ∧ r.2.notifications = e.notifications ∧
        ¬ Uneditable h d set doc.text e.host) ∨
      ∃ f, r.1 = .error f ∧
        ((r.2.notifications.count = e.notifications.count + 1 ∧
            ¬ Uneditable h d set doc.text e.host) ∨
          (r.2.notifications = e.notifications ∧ Uneditable h d set doc.text e.host)) := by
  rcases hconvert : h.convert set .toLenient doc.text e.host with ⟨f | t, s⟩
  · -- the converter fails, so that the text has not been replaced at all
    right
    rw [transcode_of_error hdoc (outside_of_error hconvert)]
    refine ⟨f, rfl, .inl ⟨rfl, ?_⟩⟩
    rintro ⟨t', s', f', hok, -⟩
    cases hconvert.symm.trans hok
  rw [transcode_of_ok hdoc (outside_of_ok hconvert)]
  rcases hedit : h.checkEdit d s with ⟨f | ⟨⟩, s'⟩
  · -- the text has been converted, and cannot be replaced
    right
    refine ⟨f, ?_, .inr ⟨?_, t, s, f, hconvert, congrArg Prod.fst hedit⟩⟩
    all_goals rw [Action.bind_apply, setText, Action.bind_apply,
      outside_of_error (e := { e with host := s }) hedit]
  · left
    refine ⟨?_, ?_, ?_⟩
    · rw [setText, Action.bind_apply, Action.bind_apply,
        outside_of_ok (e := { e with host := s }) hedit]
      rfl
    · rw [setText, Action.bind_apply, Action.bind_apply,
        outside_of_ok (e := { e with host := s }) hedit]
      rfl
    · rintro ⟨t', s', f', hok, herror⟩
      cases hconvert.symm.trans hok
      rw [hedit] at herror
      cases herror

/-- The same if the text is converted only when it has to be. -/
theorem convertWhen_reports (hdoc : e.Holds d doc) (set : κ) (source : String) (b : Bool) :
    let r := convertWhen h d set source b e
    (r.1 = .ok () ∧ r.2.notifications = e.notifications ∧
        ¬ (b = true ∧ Uneditable h d set doc.text e.host)) ∨
      ∃ f, r.1 = .error f ∧
        ((r.2.notifications.count = e.notifications.count + 1 ∧
            ¬ (b = true ∧ Uneditable h d set doc.text e.host)) ∨
          (r.2.notifications = e.notifications ∧
            b = true ∧ Uneditable h d set doc.text e.host)) := by
  cases b with
  | false => exact .inl ⟨rfl, rfl, by simp⟩
  | true => simpa [convertWhen] using transcode_reports hdoc set source

/-- The text of a document with a new handle is shown, or the failure is reported. -/
theorem showText_tells (hdoc : e.Holds d doc) (l : String) (set : κ) (source : String)
    (old : Option (Handle (Binding κ))) (backed modified convert : Bool) :
    Tells ((modified && convert) = true ∧ Uneditable h d set doc.text e.host) e
      (showText h c d l set source old backed modified convert e) := by
  have hreports := convertWhen_reports (h := h) hdoc set source (modified && convert)
  rcases hr : convertWhen h d set source (modified && convert) e with ⟨f | ⟨⟩, e₁⟩ <;>
    rw [hr] at hreports
  · -- The conversion has failed, and only the handle is put back.
    rw [showText_of_unconverted hr]
    obtain ⟨hok, -⟩ | ⟨g, -, ⟨hcount, hnot⟩ | ⟨hsame, hquiet⟩⟩ := hreports
    · cases hok
    · exact ⟨fun hok => (by cases hok), fun _ _ _ => hcount, fun hq => absurd hq hnot⟩
    · exact ⟨fun hok => (by cases hok), fun _ _ hnot => absurd hquiet hnot,
        fun _ => ⟨f, rfl, hsame⟩⟩
  obtain ⟨-, hsame, hnot⟩ | ⟨g, herror, -⟩ := hreports
  · rw [showText_of_converted hr]
    have htracked := (Silent.loadWhen (h := h) d (backed && !modified && c.reload)).eq
      { e₁ with tracked := e₁.tracked ++ [(d, l)] }
    rcases hload : loadWhen h d (backed && !modified && c.reload)
      { e₁ with tracked := e₁.tracked ++ [(d, l)] } with ⟨f | ⟨⟩, e₂⟩ <;> rw [hload] at htracked
    · rw [showText_of_unloaded hload]
      refine ⟨fun hok => (by cases hok), fun _ _ _ => ?_, fun hq => absurd hq hnot⟩
      show e₂.notifications.count + 1 = _
      rw [htracked, ← hsame]
    · rw [showText_of_loaded hload]
      exact ⟨fun _ => htracked.trans hsame, fun _ herror => (by cases herror),
        fun hq => absurd hq hnot⟩
  · cases herror

/-- A document is turned lenient, or the failure is reported, unless it is that the text cannot be
replaced. -/
theorem turnLenient_tells (h : Host σ κ) (c : ControllerSettings) (d : Nat)
    (previous : Option Grammar) (l : String) (e : Editor σ κ) :
    Tells (previous.isSome = true ∧ Unshowable h d l e) e (turnLenient h c d previous l e) := by
  rcases Option.eq_none_or_eq_some e.documents[d]? with hnone | ⟨doc, hdoc⟩
  · rw [turnLenient, Action.bind_apply, document, Action.bind_apply, Action.ask_apply]
    simp only [hnone]
    refine .of_error rfl ?_
    rintro ⟨-, doc, -, -, -, hdoc, -⟩
    cases hnone.symm.trans hdoc
  have hdoc : e.Holds d doc := hdoc
  rcases hset : h.converters l e.host with ⟨f | set, s⟩
  · -- There are no converters, which is reported, or asking for them has failed otherwise.
    have hnot : ¬ (previous.isSome = true ∧ Unshowable h d l e) := by
      rintro ⟨-, -, set, s', -, -, -, hok, -⟩
      cases hset.symm.trans hok
    have hlook : lookUp h l e = (.error f, { e with host := s }) := by
      rw [lookUp, Action.on_apply, hset]
    cases hf : f.isLookup with
    | true =>
      rw [turnLenient_of_missing hdoc hlook hf]
      exact ⟨fun hok => (by cases hok), fun _ _ _ => rfl, fun hq => absurd hq hnot⟩
    | false =>
      rw [turnLenient_of_escape hdoc hlook hf]
      exact .of_error rfl hnot
  have hlook : lookUp h l e = (.ok set, { e with host := s }) := by
    rw [lookUp, Action.on_apply, hset]
  have hdoc₁ : Holds { e with host := s } d doc := hdoc
  rcases hmodified : h.checkModified d s with ⟨f | ⟨⟩, s'⟩
  · rw [turnLenient_of_unsure hdoc hlook
      (isModified_of_error (e := { e with host := s }) hmodified)]
    refine .of_error rfl ?_
    rintro ⟨-, doc', set', s₁, s₂, -, -, hset', hok, -⟩
    cases hset.symm.trans hset'
    cases hmodified.symm.trans hok
  have hdoc₂ : Holds { e with host := s' } d doc := hdoc
  rw [turnLenient_of_sure hdoc hlook (isModified_of_ok hdoc₁ hmodified) hdoc₂]
  -- A new handle makes no difference to the text and to the host.
  refine (showText_tells (hdoc₂.put _) l set _ doc.handle _ doc.modified
    previous.isSome).congr ?_ rfl
  rw [Bool.and_eq_true]
  constructor
  · rintro ⟨hprevious, doc', set', s₁, s₂, hdoc', hmod, hset', hok, hquiet⟩
    obtain rfl := hdoc.unique hdoc'
    cases hset.symm.trans hset'
    cases hmodified.symm.trans hok
    exact ⟨⟨hmod, hprevious⟩, hquiet⟩
  · rintro ⟨⟨hmod, hprevious⟩, hquiet⟩
    exact ⟨hprevious, doc, set, s, s', hdoc, hmod, hset, hmodified, hquiet⟩

/-- What follows a silent action starts with the same notifications. -/
theorem Silent.of_bind {a : Action (Editor σ κ) α} {k : α → Action (Editor σ κ) β} (ha : Silent a)
    {y : β} (hr : (a >>= k) e = (.ok y, e')) :
    ∃ x e₁, e₁.notifications = e.notifications ∧ k x e₁ = (.ok y, e') := by
  have hsame := ha.eq e
  rw [Action.bind_apply] at hr
  rcases hfirst : a e with ⟨f | x, e₁⟩
  · rw [hfirst] at hr
    cases hr
  · rw [hfirst] at hr hsame
    exact ⟨x, e₁, hsame, hr⟩

/-- Turning a document canonical gives a success, or a failure that has been reported once. -/
theorem disable_reports {outcome : Outcome} (hr : disable h c d e = (.ok outcome, e')) :
    (outcome = .success ∧ e'.notifications = e.notifications) ∨
      ∃ f, outcome = .failure f none ∧
        e'.notifications.count = e.notifications.count + 1 := by
  rw [disable, Action.bind_apply, Action.ask_apply] at hr
  simp only [] at hr
  cases hl : e.tracked.lookup d with
  | none =>
    rw [hl] at hr
    cases hr
    exact .inl ⟨rfl, rfl⟩
  | some l =>
    rw [hl] at hr
    -- Nothing is reported before the text is restored, and that is not reported either.
    obtain ⟨-, e₁, h₁, hr⟩ := (Silent.untrack d).of_bind hr
    obtain ⟨doc, e₂, h₂, hr⟩ := (Silent.document d).of_bind hr
    obtain ⟨source, e₃, h₃, hr⟩ := (Silent.ask _).of_bind hr
    obtain ⟨modified, e₄, h₄, hr⟩ := (Silent.isModified d).of_bind hr
    obtain ⟨-, e₅, h₅, hr⟩ := (Silent.modify d _).of_bind hr
    obtain ⟨backed, e₆, h₆, hr⟩ := (Silent.ask _).of_bind hr
    obtain ⟨restored, e₇, h₇, hr⟩ := (Silent.restoreText d l modified backed).attempt.of_bind hr
    have hsame : e₇.notifications = e.notifications := by
      rw [h₇, h₆, h₅, h₄, h₃, h₂, h₁]
    cases restored with
    | ok =>
      cases hr
      exact .inl ⟨rfl, hsame⟩
    | error f =>
      cases hr
      refine .inr ⟨f, rfl, ?_⟩
      show e₇.notifications.count + 1 = _
      rw [hsame]

/-! ## Changes of grammar -/

/-- Unless the action fails, there are no fewer notifications after it than before. -/
def Grows (a : Action (Editor σ κ) α) : Prop :=
  ∀ e x e', a e = (.ok x, e') → e.notifications.count ≤ e'.notifications.count

namespace Grows

/-- A silent action takes no report back. -/
theorem of_silent {a : Action (Editor σ κ) α} (ha : Silent a) : Grows a := by
  intro e x e' hr
  have hsame := ha.eq e
  rw [hr] at hsame
  exact Nat.le_of_eq (congrArg NotificationCentre.count hsame).symm

/-- Actions that take no report back take none back one after the other. -/
theorem bind {a : Action (Editor σ κ) α} {k : α → Action (Editor σ κ) β} (ha : Grows a)
    (hk : ∀ x, Grows (k x)) : Grows (a >>= k) := by
  intro e y e' hr
  rw [Action.bind_apply] at hr
  rcases hfirst : a e with ⟨f | x, e₁⟩
  · rw [hfirst] at hr
    cases hr
  · rw [hfirst] at hr
    exact Nat.le_trans (ha e x e₁ hfirst) (hk x e₁ y e' hr)

/-- Doing something with every item of a list takes no report back if none of the steps does. -/
theorem forM {k : γ → Action (Editor σ κ) PUnit} (hk : ∀ x, Grows (k x)) (xs : List γ) :
    Grows (xs.forM k) := by
  induction xs with
  | nil => exact of_silent (Silent.pure _)
  | cons x xs ih => exact (hk x).bind fun _ => ih

/-- Turning a document lenient takes no report back. -/
theorem turnLenient (d : Nat) (previous : Option Grammar) (l : String) :
    Grows (turnLenient h c d previous l) := by
  intro e o e' hr
  have htells := turnLenient_tells h c d previous l e
  rw [hr] at htells
  cases o with
  | none => exact Nat.le_of_eq (congrArg NotificationCentre.count (htells.shown rfl)).symm
  | some f =>
    -- only a text that cannot be replaced is not reported
    by_cases hquiet : previous.isSome = true ∧ Unshowable h d l e
    · obtain ⟨-, -, hsame⟩ := htells.quiet hquiet
      exact Nat.le_of_eq (congrArg NotificationCentre.count hsame).symm
    · exact Nat.le_trans (Nat.le_succ _) (Nat.le_of_eq (htells.loud f rfl hquiet).symm)

/-- Turning the lenient mode off takes no report back. -/
theorem disable (d : Nat) : Grows (disable h c d) := by
  intro e outcome e' hr
  rcases disable_reports hr with ⟨-, hsame⟩ | ⟨f, -, hcount⟩
  · exact Nat.le_of_eq (congrArg NotificationCentre.count hsame).symm
  · exact Nat.le_trans (Nat.le_succ _) (Nat.le_of_eq hcount.symm)

variable {revert : Nat → Grammar → Action (Editor σ κ) Unit}

/-- Giving up takes no report back if going back to the previous grammar does not. -/
theorem abortEnable (hrevert : ∀ d g, Grows (revert d g)) (d : Nat) (previous : Option Grammar)
    (f : Failure) : Grows (abortEnable revert d previous f) := by
  cases previous with
  | none => exact of_silent (Silent.pure _)
  | some p => exact (hrevert d p).bind fun _ => of_silent (Silent.pure _)

/-- Turning the lenient mode on takes no report back if going back does not. -/
theorem enable (hrevert : ∀ d g, Grows (revert d g)) (d : Nat) (previous : Option Grammar)
    (l : String) : Grows (enable h c revert d previous l) := by
  refine (of_silent (Silent.ask _)).bind fun lenient => ?_
  split
  · exact of_silent (Silent.pure _)
  · refine (turnLenient d previous l).bind fun o => ?_
    cases o with
    | none => exact of_silent (Silent.pure _)
    | some f => exact abortEnable hrevert d previous f

/-- Handling a grammar takes no report back if going back does not. -/
theorem handleGrammar (hrevert : ∀ d g, Grows (revert d g)) (d : Nat) (g : Grammar)
    (previous : Option Grammar) : Grows (handleGrammar h c revert d g previous) := by
  refine (of_silent (Silent.ask _)).bind fun tracked => ?_
  cases tracked.lookup d with
  | none =>
    cases c.languageOf g with
    | none => exact of_silent (Silent.pure _)
    | some l => exact enable hrevert d previous l
  | some current =>
    -- a document that is lenient in the new language already is left alone
    simp only []
    split
    · exact of_silent (Silent.pure _)
    · refine (disable d).bind fun outcome => ?_
      cases c.languageOf g with
      | none => exact of_silent (Silent.pure _)
      | some l => exact enable hrevert d previous l

/-- An observation that follows a grammar takes no report back if going back does not. -/
theorem follow (hrevert : ∀ d g, Grows (revert d g)) (n : Nat) (g : Grammar) :
    Grows (follow h c revert n g) := by
  refine (of_silent (Silent.ask _)).bind fun observations => ?_
  cases observations[n]? with
  | none => exact of_silent (Silent.pure _)
  | some o =>
    refine (handleGrammar hrevert o.document g o.previous).bind fun _ => ?_
    exact (of_silent (Silent.document o.document)).bind fun doc =>
      of_silent fun _ => Preserves.change fun _ he => he

/-- Telling the observers takes no report back if going back does not. -/
theorem tell (hrevert : ∀ d g, Grows (revert d g)) (g : Grammar) (observers : List Observer) :
    Grows (observers.forM fun
      | .controller n => Editor.follow h c revert n g
      | .listener _ name => mark name (.words [g.scope])) := by
  refine forM (fun observer => ?_) observers
  cases observer with
  | controller n => exact follow hrevert n g
  | listener id name => exact of_silent (Silent.mark name _)

/-- No report is taken back by the changes that follow a change, however deep they are nested. -/
theorem setGrammar (depth : Nat) (d : Nat) (g : Grammar) : Grows (setGrammar h c depth d g) := by
  induction depth generalizing d g with
  | zero => exact of_silent (Silent.throw _)
  | succ depth ih =>
    refine (of_silent (Silent.document d)).bind fun doc => ?_
    split
    · exact of_silent (Silent.pure _)
    · exact (of_silent (Silent.modify d _)).bind fun _ => tell ih g _

end Grows

/-! ## Outcomes -/

section Outcomes

variable {revert : Nat → Grammar → Action (Editor σ κ) Unit} {previous : Option Grammar} {l : String}

/-- What comes of turning a document lenient: a success, or a failure, after which the document gets
its previous grammar if there is one. -/
theorem enable_ends (hfree : e.tracked.lookup d = none) {outcome : Outcome}
    (hr : enable h c revert d previous l e = (.ok outcome, e')) :
    (outcome = .success ∧ turnLenient h c d previous l e = (.ok none, e')) ∨
      ∃ f e₁, outcome = .failure f previous ∧
        turnLenient h c d previous l e = (.ok (some f), e₁) ∧
        ((previous = none ∧ e' = e₁) ∨ ∃ p, previous = some p ∧ revert d p e₁ = (.ok (), e')) := by
  rw [enable_of_free hfree, Action.bind_apply] at hr
  rcases hturned : turnLenient h c d previous l e with ⟨f | o, e₁⟩
  · rw [hturned] at hr
    -- only a failure of the host keeps the attempt from ending
    cases hr
  rw [hturned] at hr
  cases o with
  | none =>
    cases hr
    exact .inl ⟨rfl, rfl⟩
  | some f =>
    right
    cases previous with
    | none =>
      cases hr
      exact ⟨f, e', rfl, rfl, .inl ⟨rfl, rfl⟩⟩
    | some p =>
      simp only [abortEnable, Action.bind_apply] at hr
      -- the grammar before has been set, since otherwise there would be no outcome
      rcases hrevert : revert d p e₁ with ⟨_ | ⟨⟩, e₂⟩
      · rw [hrevert] at hr
        cases hr
      · rw [hrevert] at hr
        cases hr
        exact ⟨f, e₁, rfl, rfl, .inr ⟨p, rfl, hrevert⟩⟩

end Outcomes

/-- If following a change of grammar comes to an end, then its outcome is a success exactly if
nothing has been reported. -/
def Faithful (h : Host σ κ) (c : ControllerSettings)
    (revert : Nat → Grammar → Action (Editor σ κ) Unit) (d : Nat) (g : Grammar)
    (previous : Option Grammar) (e : Editor σ κ) : Prop :=
  ∀ outcome e', handleGrammar h c revert d g previous e = (.ok outcome, e') →
    (outcome = .success ↔ e'.notifications.count = e.notifications.count)

/-- A lenient document is to be shown in another language. Its canonical text cannot be restored,
and it is shown in the other language all the same. -/
def Overlooked (h : Host σ κ) (c : ControllerSettings) (d : Nat) (g : Grammar)
    (previous : Option Grammar) (e : Editor σ κ) : Prop :=
  ∃ l f e₁, c.languageOf g = some l ∧ e.tracked.lookup d ≠ some l ∧
    disable h c d e = (.ok (.failure f none), e₁) ∧
    (turnLenient h c d previous l e₁).1 = .ok none

/-- A document is to be shown in a language. Its text has been converted but cannot be replaced, and
the document gets its previous grammar back, on which nothing is reported either. -/
def Unreported (h : Host σ κ) (c : ControllerSettings)
    (revert : Nat → Grammar → Action (Editor σ κ) Unit) (d : Nat) (g : Grammar)
    (previous : Option Grammar) (e : Editor σ κ) : Prop :=
  ∃ p l f e₁ e₂ e₃, previous = some p ∧ c.languageOf g = some l ∧ e.tracked.lookup d ≠ some l ∧
    disable h c d e = (.ok .success, e₁) ∧ Unshowable h d l e₁ ∧
    turnLenient h c d (some p) l e₁ = (.ok (some f), e₂) ∧ revert d p e₂ = (.ok (), e₃) ∧
    e₃.notifications.count = e₂.notifications.count

/-- The document is not lenient once it has been turned canonical. -/
theorem free_of_disable {outcome : Outcome} (hr : disable h c d e = (.ok outcome, e')) :
    e'.tracked.lookup d = none := by
  have hfree := lookup_disable c h d e
  rwa [hr] at hfree

section Faithful

variable {revert : Nat → Grammar → Action (Editor σ κ) Unit} {previous : Option Grammar}

/-- Where outcomes are faithful, no reported failure is overlooked. -/
theorem Faithful.not_overlooked (hfaithful : Faithful h c revert d g previous e) :
    ¬ Overlooked h c d g previous e := by
  rintro ⟨l, f, e₁, hl, hother, hdisable, hturned⟩
  have htells := turnLenient_tells h c d previous l e₁
  rcases hrun : turnLenient h c d previous l e₁ with ⟨r, e₂⟩
  rw [hrun] at hturned htells
  obtain rfl : r = .ok none := hturned
  have hhandled : handleGrammar h c revert d g previous e = (.ok .success, e₂) := by
    rw [handleGrammar_of_other hl hother, Action.bind_of_ok hdisable,
      enable_of_free (free_of_disable hdisable), Action.bind_of_ok hrun]
    rfl
  have hsame : e₂.notifications.count = e.notifications.count :=
    (hfaithful _ _ hhandled).mp rfl
  -- the count would be the same, although the failure to restore the text has raised it
  have hshown : e₂.notifications.count = e₁.notifications.count :=
    congrArg NotificationCentre.count (htells.shown rfl)
  rcases disable_reports hdisable with ⟨hok, -⟩ | ⟨-, -, hcount⟩
  · cases hok
  · omega

/-- Where outcomes are faithful, no failure goes unreported. -/
theorem Faithful.not_unreported (hfaithful : Faithful h c revert d g previous e) :
    ¬ Unreported h c revert d g previous e := by
  rintro ⟨p, l, f, e₁, e₂, e₃, rfl, hl, hother, hdisable, hunshowable, hrun, hrevert, hquiet⟩
  have hhandled : handleGrammar h c revert d g (some p) e = (.ok (.failure f (some p)), e₃) := by
    rw [handleGrammar_of_other hl hother, Action.bind_of_ok hdisable,
      enable_of_free (free_of_disable hdisable), Action.bind_of_ok hrun]
    exact Action.bind_of_ok hrevert
  -- None of the three steps has added a notification.
  have hsame : e₃.notifications.count = e.notifications.count := by
    obtain ⟨f', hfailed, hhushed⟩ :=
      (turnLenient_tells h c d (some p) l e₁).quiet ⟨rfl, hunshowable⟩
    rw [hrun] at hhushed
    rcases disable_reports hdisable with ⟨-, hdisabled⟩ | ⟨f'', hok, -⟩
    · rw [hquiet, hhushed, hdisabled]
    · cases hok
  cases (hfaithful _ _ hhandled).mpr hsame

/-- What a failure to show a document costs, up to the point where its previous grammar is given
back. -/
theorem count_of_refused {l : String} {f : Failure}
    (hr : turnLenient h c d previous l e = (.ok (some f), e')) :
    e.notifications.count < e'.notifications.count ∨
      (previous.isSome = true ∧ Unshowable h d l e) ∧
        e'.notifications.count = e.notifications.count := by
  have htells := turnLenient_tells h c d previous l e
  rw [hr] at htells
  by_cases hquiet : previous.isSome = true ∧ Unshowable h d l e
  · obtain ⟨-, -, hsame⟩ := htells.quiet hquiet
    exact .inr ⟨hquiet, congrArg NotificationCentre.count hsame⟩
  · exact .inl (Nat.lt_of_lt_of_eq (Nat.lt_succ_self _) (htells.loud f rfl hquiet).symm)

/-- If the document could not be shown, then something has been reported on the way. -/
theorem count_lt_of_failure (hrevert : ∀ d g, Grows (revert d g))
    (hreported : ¬ Unreported h c revert d g previous e) {l : String} {f : Failure}
    {disabled : Outcome} {e₁ e₂ : Editor σ κ} (hl : c.languageOf g = some l)
    (hother : e.tracked.lookup d ≠ some l) (hdisable : disable h c d e = (.ok disabled, e₁))
    (hrun : turnLenient h c d previous l e₁ = (.ok (some f), e₂))
    (hback : (previous = none ∧ e' = e₂) ∨ ∃ p, previous = some p ∧ revert d p e₂ = (.ok (), e')) :
    e.notifications.count < e'.notifications.count := by
  have hdisabled := Grows.disable d e disabled e₁ hdisable
  have hgrown : e₂.notifications.count ≤ e'.notifications.count := by
    rcases hback with ⟨-, rfl⟩ | ⟨p, -, hr⟩
    · exact Nat.le_refl _
    · exact hrevert d p e₂ () e' hr
  rcases count_of_refused hrun with hloud | ⟨⟨hprevious, hunshowable⟩, hhushed⟩
  · omega
  rcases disable_reports hdisable with ⟨rfl, hsame⟩ | ⟨f', -, hcount⟩
  · rcases hback with ⟨rfl, -⟩ | ⟨p, rfl, hr⟩
    · cases hprevious
    · -- Only the way back can have been reported.
      have hne : e'.notifications.count ≠ e₂.notifications.count := fun hquiet =>
        hreported ⟨p, l, f, e₁, e₂, e', rfl, hl, hother, hdisable, hunshowable, hrun, hr, hquiet⟩
      rw [← hsame]
      omega
  · omega

/-- Outcomes are faithful if nothing is overlooked and nothing goes unreported. -/
theorem faithful_of_reported (hrevert : ∀ d g, Grows (revert d g))
    (hoverlooked : ¬ Overlooked h c d g previous e)
    (hreported : ¬ Unreported h c revert d g previous e) :
    Faithful h c revert d g previous e := by
  intro outcome e' hr
  rcases Option.eq_none_or_eq_some (c.languageOf g) with hl | ⟨l, hl⟩
  · rw [handleGrammar_of_none hl] at hr
    rcases disable_reports hr with ⟨rfl, hsame⟩ | ⟨f, rfl, hcount⟩
    · simp [hsame]
    · simp [hcount]
  by_cases hother : e.tracked.lookup d = some l
  · rw [handleGrammar_of_same hl hother] at hr
    cases hr
    simp
  rw [handleGrammar_of_other hl hother, Action.bind_apply] at hr
  rcases hdisable : disable h c d e with ⟨f | disabled, e₁⟩
  · rw [hdisable] at hr
    cases hr
  rw [hdisable] at hr
  rcases enable_ends (free_of_disable hdisable) hr with ⟨rfl, hrun⟩ | ⟨f, e₂, rfl, hrun, hback⟩
  · -- The document has been shown, so turning it canonical has not failed.
    have htells := turnLenient_tells h c d previous l e₁
    rw [hrun] at htells
    have hshown : e'.notifications = e₁.notifications := htells.shown rfl
    rcases disable_reports hdisable with ⟨-, hsame⟩ | ⟨f, rfl, -⟩
    · simp [hshown, hsame]
    · exact absurd ⟨l, f, e₁, hl, hother, hdisable, by rw [hrun]⟩ hoverlooked
  · have hlt := count_lt_of_failure hrevert hreported hl hother hdisable hrun hback
    simp [Nat.ne_of_gt hlt]

end Faithful

/-- Outcomes are faithful, but for a failure that is overlooked in a change from one lenient dialect
to another and for a text that cannot be replaced. -/
theorem faithful_iff (h : Host σ κ) (c : ControllerSettings) (depth : Nat) (d : Nat) (g : Grammar)
    (previous : Option Grammar) (e : Editor σ κ) :
    Faithful h c (setGrammar h c depth) d g previous e ↔
      ¬ Overlooked h c d g previous e ∧
        ¬ Unreported h c (setGrammar h c depth) d g previous e := by
  constructor
  · intro hfaithful
    exact ⟨hfaithful.not_overlooked, hfaithful.not_unreported⟩
  · rintro ⟨hoverlooked, hreported⟩
    exact faithful_of_reported (Grows.setGrammar depth) hoverlooked hreported

/-! ## Two scripts -/

/-- An observed script after some steps. -/
def scriptAfter (steps : List (Step Memory)) : Editor Memory ConverterSet :=
  let c : ControllerSettings := ⟨ControllerSettings.standardScopes, true⟩
  run Memory.host c 0 (observe Memory.host c 0 (Memory.oneScript (Text.ofString "1;\n"))).2 steps

/-- The script is edited, and then its text can no longer be replaced. -/
def frozen : List (Step Memory) :=
  [.edit (Text.ofString "2;\n"), .elsewhere fun m => { m with documentFaults := [(0, .setText)] }]

/-- The script is shown in the lenient dialect and edited, and then it can no longer be converted to
the canonical one. -/
def unconvertible : List (Step Memory) :=
  [.setGrammar ⟨"source.js.lenient", "Lenient JavaScript"⟩, .edit (Text.ofString "2\n"),
    .elsewhere fun m =>
      { m with broken := [(("js", .toCanonical), .malformed "Unexpected token" (some 1) none)] }]

/-- An outcome that disagrees with what has been reported is not faithful. -/
theorem not_faithful_of_run {revert : Nat → Grammar → Action (Editor σ κ) Unit}
    {previous : Option Grammar} {r : Except Failure Outcome × Editor σ κ} (outcome : Outcome)
    (hr : handleGrammar h c revert d g previous e = r) (houtcome : r.1.toOption = some outcome)
    (hdiffers : ¬ (outcome = .success ↔ r.2.notifications.count = e.notifications.count)) :
    ¬ Faithful h c revert d g previous e := by
  intro hfaithful
  refine hdiffers (hfaithful outcome r.2 ?_)
  rw [hr, ← eq_ok_of_toOption houtcome]

/-- A text that cannot be replaced gives a failure of which nobody is told, and a text that cannot
be restored gives a success of which somebody is told that it failed. -/
theorem not_faithful_scriptAfter :
    ¬ Faithful Memory.host ⟨ControllerSettings.standardScopes, true⟩
        (changeGrammar Memory.host ⟨ControllerSettings.standardScopes, true⟩) 0
        ⟨"source.js.lenient", "Lenient JavaScript"⟩ (some ⟨"source.js", "JavaScript"⟩)
        (scriptAfter frozen) ∧
      ¬ Faithful Memory.host ⟨ControllerSettings.standardScopes, true⟩
        (changeGrammar Memory.host ⟨ControllerSettings.standardScopes, true⟩) 0
        ⟨"source.json.lenient", "Lenient JSON"⟩
        (some ⟨"source.js.lenient", "Lenient JavaScript"⟩) (scriptAfter unconvertible) := by
  constructor
  · -- the change of grammar ends in a failure, and nothing is reported
    refine not_faithful_of_run
      (.failure (.storage "set_text failed") (some ⟨"source.js", "JavaScript"⟩)) rfl ?_ ?_
    · decide +kernel
    · decide +kernel
  · -- the change of grammar ends in a success, and a notification is there
    refine not_faithful_of_run .success rfl ?_ ?_
    · decide +kernel
    · decide +kernel

end Dialects.Editor

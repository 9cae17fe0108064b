import Dialects.Proofs.Editor.Deactivation
import Dialects.Proofs.Editor.Recording

/-!
# What a save clears

A lenient document is saved, and all goes well: then what has been reported about earlier saves of
it and about turning it lenient is out of date and should disappear, and nothing else should that is
about another file (`ClearsStale`). The save dismisses what was reported under the name that the
document has had since it was turned lenient. So this is what happens exactly if the visible
notifications about the document were reported under this name, and those about other files were not
(`Attributed`). It always is as long as no file is renamed; with renames it need not be.

## Main definitions

* `ReportedBy`: a notification was reported for a document by a deed;
* `ClearsStale`: what is expected of a save;
* `Attributed`: the names in notifications tell documents apart.

## Main results

* `source_of_reported`: the name under which a notification was reported;
* `clearsStale_iff`: a save clears what it should exactly if names tell documents apart.
-/

namespace Dialects

namespace Notification

/-- A visible notification that has a source becomes stale with a save under this very name. -/
theorem isStale_iff {x : Notification} {name source : String} (hvisible : x.dismissed = false)
    (hsource : x.source = some name) :
    x.isStale (some source) = true ↔ x.category ∈ staleOnSave ∧ name = source := by
  simp [isStale, hvisible, hsource]

end Notification

namespace Editor

open Dialects.Action

variable {σ κ : Type} {h : Host σ κ} {c : ControllerSettings} {e : Editor σ κ}
  {deeds : List (Deed σ)} {d d' k m : Nat} {x : Notification}

/-! ## Stages of a run -/

/-- The editor after the first deeds. -/
def stage (h : Host σ κ) (c : ControllerSettings) (e : Editor σ κ) (deeds : List (Deed σ))
    (k : Nat) : Editor σ κ :=
  workOn h c e (deeds.take k)

/-- The last stage is the editor after all deeds. -/
theorem stage_length (h : Host σ κ) (c : ControllerSettings) (e : Editor σ κ)
    (deeds : List (Deed σ)) : stage h c e deeds deeds.length = workOn h c e deeds := by
  rw [stage, List.take_length]

/-- Each stage comes from the one before by one deed. -/
theorem stage_succ {deed : Deed σ} (hdeed : deeds[k]? = some deed) :
    stage h c e deeds (k + 1) = (deed.perform h c (stage h c e deeds k)).2 := by
  rw [stage, workOn, List.take_add_one, hdeed, List.foldl_append]
  rfl

theorem stage_of_none (hnone : deeds[k]? = none) :
    stage h c e deeds (k + 1) = stage h c e deeds k := by
  rw [stage, stage, List.take_add_one, hnone]
  simp

/-- The notification of this number was reported for the document by the deed `k`. -/
structure ReportedBy (h : Host σ κ) (c : ControllerSettings) (e : Editor σ κ)
    (deeds : List (Deed σ)) (k d id : Nat) : Prop where
  subject : deeds[k]?.bind Deed.subject = some d
  low : (stage h c e deeds k).notifications.count ≤ id
  high : id < (stage h c e deeds (k + 1)).notifications.count

/-- What is expected of a save: nothing that was reported for the document is visible any more that
a save makes stale, and nothing has disappeared that was reported for a document with another
file. -/
structure ClearsStale (h : Host σ κ) (c : ControllerSettings) (e : Editor σ κ)
    (deeds : List (Deed σ)) (d : Nat) : Prop where
  own : ∀ x ∈ (save h d (workOn h c e deeds)).2.notifications.visible,
    x.category ∈ Notification.staleOnSave → ∀ k, ¬ ReportedBy h c e deeds k d x.id
  others : ∀ x ∈ (workOn h c e deeds).notifications.visible, ∀ k d',
    ReportedBy h c e deeds k d' x.id →
    filed h (workOn h c e deeds) d' ≠ filed h (workOn h c e deeds) d →
    x ∈ (save h d (workOn h c e deeds)).2.notifications.visible

/-- Of the visible notifications that a save makes stale, those for the document were reported under
the name by which it is called now, and those for documents with other files were not. -/
def Attributed (h : Host σ κ) (c : ControllerSettings) (e : Editor σ κ) (deeds : List (Deed σ))
    (d : Nat) : Prop :=
  ∀ x ∈ (workOn h c e deeds).notifications.visible, x.category ∈ Notification.staleOnSave →
    ∀ k d', ReportedBy h c e deeds k d' x.id →
      (d' = d → called h (stage h c e deeds (k + 1)) d = called h (workOn h c e deeds) d) ∧
      (filed h (workOn h c e deeds) d' ≠ filed h (workOn h c e deeds) d →
        called h (stage h c e deeds (k + 1)) d' ≠ called h (workOn h c e deeds) d)

/-- A controller has been put to work that follows no document yet and has nothing to report, and
every document has a file. -/
structure Outset (e : Editor σ κ) : Prop where
  idle : e.tracked = []
  silent : e.notifications = .empty
  alone : ∀ d doc n, e.Holds d doc → .controller n ∉ doc.grammarObservers.callbacks
  file : ∀ d doc, e.Holds d doc → ∃ n, doc.handle = some (.file n)

namespace Outset

variable (ho : Outset e)

include ho

/-- At the start all handles are files. -/
theorem startHandles {base : Handle (Binding κ)} (hbase : base ∈ startHandles e) :
    ∃ n, base = .file n := by
  obtain ⟨doc, hdoc, hhandle⟩ := List.mem_filterMap.mp hbase
  obtain ⟨d, hd⟩ := List.mem_iff_getElem?.mp hdoc
  obtain ⟨n, hn⟩ := ho.file d doc hd
  exact ⟨n, Option.some.inj (hhandle.symm.trans hn)⟩

/-- Without a mapped handle, a document is called by its path. -/
theorem called_eq (h : Host σ κ) (d : Nat) : called h e d = filed h e d := by
  refine called_eq_filed fun p _ inner b hmapped => ?_
  rw [handleOf] at hmapped
  obtain ⟨doc, hdoc, hhandle⟩ := Option.bind_eq_some_iff.mp hmapped
  obtain ⟨n, hn⟩ := ho.file d doc hdoc
  cases hn.symm.trans hhandle

variable (hh : h.Dependable) (hdestroy : ∀ d, .destroy d ∉ deeds)

include hh hdestroy

/-- At every stage handles and the table agree. -/
theorem coherent (k : Nat) :
    Coherent (fun _ => True) (Editor.startHandles e) (fun _ => True) (stage h c e deeds k) := by
  have hlaunch : Launch h (fun _ => True) e := by
    refine ⟨trivial, ho.idle, ho.alone, fun d doc hdoc => ?_⟩
    obtain ⟨n, hn⟩ := ho.file d doc hdoc
    exact ⟨.file n, hn, rfl, fun s _ => hh.named n s⟩
  refine workOn_induction (fun deed hdeed => ?_) (hlaunch.coherent _)
  -- nothing can be done elsewhere that would matter here, and no document is destroyed
  refine Coherent.perform h.respects_true (fun _ _ s _ => hh.named _ s)
    (fun d s _ => hh.modified d s) (fun d hd => ?_) fun _ _ _ _ => trivial
  exact absurd (List.mem_of_mem_take (hd ▸ hdeed)) (hdestroy d)

/-- From stage to stage the deed is on record. -/
theorem recorded {deed : Deed σ} (hdeed : deeds[k]? = some deed) :
    Recorded h deed (stage h c e deeds k) (stage h c e deeds (k + 1)) := by
  rw [stage_succ hdeed]
  refine recorded_perform (fun _ => ho.startHandles) hh (ho.coherent hh hdestroy k) fun d hd => ?_
  exact hdestroy d (hd ▸ List.mem_of_getElem? hdeed)

/-- No report is ever taken back from stage to stage. -/
theorem count_mono (hkm : k ≤ m) :
    (stage h c e deeds k).notifications.count ≤ (stage h c e deeds m).notifications.count := by
  induction hkm with
  | refl => exact Nat.le_refl _
  | @step m _ ih =>
    refine Nat.le_trans ih ?_
    cases hdeed : deeds[m]? with
    | none => exact Nat.le_of_eq (by rw [stage_of_none hdeed])
    | some deed => exact (ho.recorded hh hdestroy hdeed).gained.count

/-! ## The names in notifications -/

/-- What is reported for a document that a save makes stale, is reported under the name by which the
document is called after the deed. -/
theorem source_of_reported (m : Nat) :
    ∀ x ∈ (stage h c e deeds m).notifications.items,
      x.id < (stage h c e deeds m).notifications.count ∧
      (x.category ∈ Notification.staleOnSave → ∀ k d, k < m → ReportedBy h c e deeds k d x.id →
        ∃ name, called h (stage h c e deeds (k + 1)) d = some name ∧ x.source = some name) := by
  -- that numbers are below the count tells the deed that a notification was reported by
  induction m with
  | zero =>
    intro x hx
    rw [stage, List.take_zero, workOn, List.foldl_nil, ho.silent] at hx
    exact absurd hx List.not_mem_nil
  | succ m ih =>
    cases hdeed : deeds[m]? with
    | none =>
      rw [stage_of_none hdeed]
      intro x hx
      refine ⟨(ih x hx).1, fun hstale k d hk hreported => ?_⟩
      obtain hlt | rfl := Nat.lt_succ_iff_lt_or_eq.mp hk
      · exact (ih x hx).2 hstale k d hlt hreported
      · have hsubject := hreported.subject
        rw [hdeed] at hsubject
        contradiction
    | some deed =>
      have hrecorded := ho.recorded (c := c) hh hdestroy hdeed
      intro x hx
      obtain ⟨x₀, hx₀, hid, hcategory, hsource⟩ | ⟨hlow, hhigh, hnamed⟩ :=
        hrecorded.gained.items x hx
      · -- an old notification, which was not reported by this deed
        obtain ⟨hlt, hnames⟩ := ih x₀ hx₀
        rw [hid] at hlt hnames
        rw [hcategory, hsource] at hnames
        refine ⟨Nat.lt_of_lt_of_le hlt hrecorded.gained.count, fun hstale k d hk hreported => ?_⟩
        obtain hk | rfl := Nat.lt_succ_iff_lt_or_eq.mp hk
        · exact hnames hstale k d hk hreported
        · exact absurd hreported.low (Nat.not_le_of_lt hlt)
      · -- a new one, which was not reported by an earlier deed
        refine ⟨hhigh, fun hstale k d hk hreported => ?_⟩
        obtain hk | rfl := Nat.lt_succ_iff_lt_or_eq.mp hk
        · have hold := Nat.lt_of_lt_of_le hreported.high
            (ho.count_mono (c := c) hh hdestroy (Nat.succ_le_of_lt hk))
          exact absurd hlow (Nat.not_le_of_lt hold)
        · obtain ⟨d₁, name, hsubject, hcalled, hname⟩ := hnamed hstale
          have hd := hreported.subject
          rw [hdeed, Option.bind_some, hsubject] at hd
          obtain rfl := Option.some.inj hd
          exact ⟨name, hcalled, hname⟩

/-- As long as no file is renamed, every document is called by its path, which is the one that it
had at first. -/
theorem called_of_unrenamed (hkept : ∀ f, .elsewhere f ∈ deeds → ∀ n s,
    h.files.path n (f s) = h.files.path n s) (k d : Nat) :
    called h (stage h c e deeds k) d = filed h (stage h c e deeds k) d ∧
      filed h (stage h c e deeds k) d = filed h e d := by
  induction k with
  | zero => exact ⟨ho.called_eq h d, rfl⟩
  | succ k ih =>
    cases hdeed : deeds[k]? with
    | none =>
      rw [stage_of_none hdeed]
      exact ih
    | some deed =>
      have hrecorded := ho.recorded (c := c) hh hdestroy hdeed
      have hfiled : filed h (stage h c e deeds (k + 1)) d = filed h (stage h c e deeds k) d := by
        rw [stage_succ hdeed]
        -- only what is done elsewhere could rename a file, and it keeps the paths here
        by_cases helsewhere : ∃ f, deed = .elsewhere f
        · obtain ⟨f, rfl⟩ := helsewhere
          refine congrArg (Option.map · _) (funext fun handle => ?_)
          exact hkept f (List.mem_of_getElem? hdeed) handle.base _
        · refine filed_perform hh (ho.coherent hh hdestroy k) (fun d hd => ?_)
            (fun f hf => helsewhere ⟨f, hf⟩) d
          exact hdestroy d (hd ▸ List.mem_of_getElem? hdeed)
      refine ⟨?_, hfiled.trans ih.2⟩
      -- only the document that the deed is about may get a new handle, which has its path
      by_cases hsubject : deed.subject = some d
      · obtain hsame | hcalled := hrecorded.own d hsubject
        · exact called_of_handle hsame hfiled ih.1
        · exact hcalled
      · exact called_of_handle (hrecorded.others d hsubject) hfiled ih.1

/-- What is visible after a save that has gone well, of a document that counts as lenient. -/
theorem mem_visible_save (hlenient : isLenient (workOn h c e deeds) d = true)
    (hsaved : (save h d (workOn h c e deeds)).1 = .ok ()) :
    ∃ source, called h (workOn h c e deeds) d = some source ∧
      ∀ x, x ∈ (save h d (workOn h c e deeds)).2.notifications.visible ↔
        x ∈ (workOn h c e deeds).notifications.visible ∧ x.isStale (some source) = false := by
  have hc := ho.coherent (c := c) hh hdestroy deeds.length
  rw [stage_length] at hc
  generalize workOn h c e deeds = e₁ at hlenient hsaved hc
  obtain ⟨doc, hdoc⟩ : ∃ doc, e₁.Holds d doc := by
    cases hdoc : e₁.documents[d]? with
    | some doc => exact ⟨doc, hdoc⟩
    | none =>
      rw [save, Action.bind_apply, document_of_none hdoc] at hsaved
      contradiction
  have hs := coherent_iff.mp hc
  have hbase := List.getElem?_eq_getElem (hs.lt hdoc)
  obtain ⟨n, hn⟩ := ho.startHandles (List.getElem_mem (hs.lt hdoc))
  rw [hn] at hbase
  -- it is mapped, and so it is called by the name that its handle keeps
  obtain ⟨b, hmapped⟩ := (hs.placed d doc hdoc).mapped _ hbase trivial hlenient
  refine ⟨b.source, ?_, fun x => ?_⟩
  · rw [called, handleOf_eq hdoc, hmapped]
    rfl
  · obtain ⟨e₂, hr, hdismissed⟩ | ⟨f, e₂, hr, -⟩ := save_mapped (h := h) hdoc hmapped
    · rw [hr, hdismissed]
      exact NotificationCentre.mem_visible_dismissStale
    · rw [hr] at hsaved
      contradiction

/-- Whether a notification that a save makes stale stays visible depends on the name under which it
was reported. -/
theorem mem_visible_save_iff (hlenient : isLenient (workOn h c e deeds) d = true)
    (hsaved : (save h d (workOn h c e deeds)).1 = .ok ())
    (hx : x ∈ (workOn h c e deeds).notifications.visible)
    (hstale : x.category ∈ Notification.staleOnSave) (hreported : ReportedBy h c e deeds k d' x.id) :
    x ∈ (save h d (workOn h c e deeds)).2.notifications.visible ↔
      called h (stage h c e deeds (k + 1)) d' ≠ called h (workOn h c e deeds) d := by
  obtain ⟨source, hcalled, hvisible⟩ := ho.mem_visible_save hh hdestroy hlenient hsaved
  obtain ⟨hitem, hdismissed⟩ := List.mem_filter.mp hx
  have hk : k < deeds.length := by
    obtain ⟨deed, hdeed, -⟩ := Option.bind_eq_some_iff.mp hreported.subject
    exact (List.getElem?_eq_some_iff.mp hdeed).1
  rw [← stage_length] at hitem
  obtain ⟨name, hname, hsource⟩ :=
    (ho.source_of_reported hh hdestroy deeds.length x hitem).2 hstale k d' hk hreported
  -- the notification is stale under exactly the name that it carries
  have hiff : x.isStale (some source) = true ↔ x.category ∈ Notification.staleOnSave ∧ name = source :=
    Notification.isStale_iff (by simpa using hdismissed) hsource
  rw [hvisible, hname, hcalled, ← Bool.not_eq_true, hiff]
  simp [hx, hstale]

/-- As long as no file is renamed, the names in notifications tell documents apart. -/
theorem attributed_of_unrenamed (hkept : ∀ f, .elsewhere f ∈ deeds → ∀ n s,
    h.files.path n (f s) = h.files.path n s) (d : Nat) : Attributed h c e deeds d := by
  -- every document has always been called by the path that it has
  have hnamed (k d : Nat) : called h (stage h c e deeds k) d = filed h e d := by
    obtain ⟨hcalled, hfiled⟩ := ho.called_of_unrenamed (c := c) hh hdestroy hkept k d
    exact hcalled.trans hfiled
  have hfiled (d : Nat) : filed h (workOn h c e deeds) d = filed h e d := by
    rw [← stage_length]
    exact (ho.called_of_unrenamed hh hdestroy hkept deeds.length d).2
  intro x _ _ k d' _
  rw [← stage_length, hnamed, hnamed, hnamed, stage_length, hfiled, hfiled]
  exact ⟨fun _ => rfl, id⟩

end Outset

/-- A save that goes well clears what it should exactly if the names in notifications tell documents
apart, and as long as no file is renamed they do. -/
theorem clearsStale_iff (hh : h.Dependable) (ho : Outset e) (hdestroy : ∀ d, .destroy d ∉ deeds)
    (hlenient : isLenient (workOn h c e deeds) d = true)
    (hsaved : (save h d (workOn h c e deeds)).1 = .ok ()) :
    (ClearsStale h c e deeds d ↔ Attributed h c e deeds d) ∧
      ((∀ f, .elsewhere f ∈ deeds → ∀ n s, h.files.path n (f s) = h.files.path n s) →
        ClearsStale h c e deeds d) := by
  have hcleared {x : Notification} {k d' : Nat}
      (hx : x ∈ (workOn h c e deeds).notifications.visible)
      (hstale : x.category ∈ Notification.staleOnSave)
      (hreported : ReportedBy h c e deeds k d' x.id) :=
    ho.mem_visible_save_iff hh hdestroy hlenient hsaved hx hstale hreported
  obtain ⟨source, -, hvisible⟩ := ho.mem_visible_save hh hdestroy hlenient hsaved
  have hiff : ClearsStale h c e deeds d ↔ Attributed h c e deeds d := by
    constructor
    · intro hclears x hx hstale k d' hreported
      refine ⟨?_, fun hfile => (hcleared hx hstale hreported).mp
        (hclears.others x hx k d' hreported hfile)⟩
      -- a notification about the document itself has to disappear, so that its name is that of the
      -- document
      rintro rfl
      refine Decidable.byContradiction fun hne => ?_
      exact hclears.own x ((hcleared hx hstale hreported).mpr hne) hstale k hreported
    · intro hattributed
      refine ⟨fun x hx hstale k hreported => ?_, fun x hx k d' hreported hfile => ?_⟩
      · -- what is still visible was not stale, so that its name is another one
        have hx₁ := ((hvisible x).mp hx).1
        exact (hcleared hx₁ hstale hreported).mp hx
          ((hattributed x hx₁ hstale k d hreported).1 rfl)
      · by_cases hstale : x.category ∈ Notification.staleOnSave
        · exact (hcleared hx hstale hreported).mpr
            ((hattributed x hx hstale k d' hreported).2 hfile)
        · -- a notification of another category is never stale
          refine (hvisible x).mpr ⟨hx, ?_⟩
          simp [Notification.isStale, hstale]
  exact ⟨hiff, fun hkept => hiff.mpr (ho.attributed_of_unrenamed hh hdestroy hkept d)⟩

end Editor

/-! ## Two documents on disk -/

namespace Directory

/-- What is done to files on disk renames none of them. -/
theorem host_dependable : host.Dependable where
  paths path := by
    have hsame {s s' : Directory} (hfiles : s'.files = s.files)
        (hs : ∀ n, host.files.path n s = path n) (n : Nat) : host.files.path n s' = path n := by
      rw [← hs n]
      show (Directory.path n s').toString = (Directory.path n s).toString
      -- the path depends on nothing but the files
      rw [Directory.path, hfiles]
      rfl
    refine ⟨fun n s => hsame ?_, fun n s => hsame ?_, fun n t s => hsame ?_, fun n t s => hsame ?_,
      fun l s => hsame ?_, fun _ _ _ _ => id, fun _ _ => id, fun _ _ => id, fun _ _ => id⟩
    · show (read n s).2.files = s.files
      cases hfile : s.files[n]? with
      | none => rw [read, Action.bind_apply, file_of_none hfile]
      | some f => rw [read_apply hfile]
    · show ((target n >>= fun _ => pure ()) s).2.files = s.files
      rw [Action.bind_apply]
      obtain ⟨f, hr, -⟩ | ⟨place, hr, -⟩ := target_cases n s
      · rw [hr]
      · rw [hr]
        rfl
    · show ((encode n t >>= fun _ => pure ()) s).2.files = s.files
      rw [Action.bind_apply]
      obtain ⟨f, hr, -⟩ | ⟨bytes, hr, -⟩ := encode_cases n t s
      · rw [hr]
      · rw [hr]
        rfl
    · show (commit n t s).2.files = s.files
      obtain ⟨f, hr, -⟩ | ⟨place, bytes, hr, -⟩ := commit_cases n t s
      · rw [hr]
      · rw [hr]
    · show (converters l s).2.files = s.files
      obtain ⟨r, hr, -⟩ := converters_apply l s
      rw [hr]
  named n s := Editor.toString_ne_empty _
  modified _ _ := rfl

end Directory

namespace Editor

/-- Two documents on files of their own are an outset. -/
theorem outset_twoLines : Outset twoLines := by
  refine ⟨rfl, rfl, launch_twoLines.alone, fun d doc hdoc => ?_⟩
  have hmem := List.mem_of_getElem? hdoc
  simp only [twoLines, List.mem_cons, List.not_mem_nil, or_false] at hmem
  rcases hmem with rfl | rfl
  · exact ⟨0, rfl⟩
  · exact ⟨1, rfl⟩

/-- A document is to be shown in the lenient dialect while no file can be read. -/
def refusedLines (d : Nat) : List (Deed Directory) :=
  [.elsewhere fun s => { s with refused := [.read] },
    .setGrammar d ⟨"source.lines.lenient", "Lenient lines"⟩,
    .elsewhere fun s => { s with refused := [] }]

/-- A document is shown in the lenient dialect. -/
def shownLines (d : Nat) : Deed Directory :=
  .setGrammar d ⟨"source.lines.lenient", "Lenient lines"⟩

/-- Both documents cannot be shown at first, and then the first one is. -/
def steadyLines : List (Deed Directory) :=
  [.observe 0, .observe 1] ++ refusedLines 0 ++ refusedLines 1 ++ [shownLines 0]

/-- The first document cannot be shown at first. It is shown once its file has been renamed. -/
def renamedLines : List (Deed Directory) :=
  [.observe 0, .observe 1] ++ refusedLines 0 ++
    [.elsewhere fun s => (Directory.rename 0 "/r" s).2, shownLines 0]

/-- The first document is shown, and then its file is renamed and the other one gets its name. The
second document cannot be shown. -/
def swappedLines : List (Deed Directory) :=
  [.observe 0, .observe 1, shownLines 0, .elsewhere fun s => (Directory.rename 0 "/r" s).2,
    .elsewhere fun s => (Directory.rename 1 "/p" s).2] ++ refusedLines 1

/-- The notification that a file could not be read. -/
def unreadable (id : Nat) (p : String) : Notification :=
  ⟨id, Notification.toLenientCategory, "Cannot open for read: " ++ p, true, some p, false⟩

/-- Where no file is renamed, what was reported about the first document disappears when it is saved,
and what was reported about the second one stays. -/
theorem clearsStale_steadyLines :
    ClearsStale Directory.host lineSettings twoLines steadyLines 0 ∧
      (workOn Directory.host lineSettings twoLines steadyLines).notifications.visible
        = [unreadable 0 "/p", unreadable 1 "/q"] ∧
      (save Directory.host 0 (workOn Directory.host lineSettings twoLines
        steadyLines)).2.notifications.visible = [unreadable 1 "/q"] := by
  have hdestroy (d : Nat) : .destroy d ∉ steadyLines := by
    simp [steadyLines, refusedLines, shownLines]
  have hlenient : isLenient (workOn Directory.host lineSettings twoLines steadyLines) 0 = true := by
    decide +kernel
  have hsaved : (save Directory.host 0 (workOn Directory.host lineSettings twoLines
      steadyLines)).1.toOption = some () := by decide +kernel
  refine ⟨(clearsStale_iff Directory.host_dependable outset_twoLines hdestroy hlenient
    (eq_ok_of_toOption hsaved)).2 fun f hf n s => ?_, by decide +kernel, by decide +kernel⟩
  -- a deed elsewhere is one of the four that make files unreadable or readable again
  simp only [steadyLines, refusedLines, shownLines, List.cons_append, List.nil_append,
    List.mem_cons, List.not_mem_nil, Deed.elsewhere.injEq, reduceCtorEq, or_false, false_or] at hf
  obtain rfl | rfl | rfl | rfl := hf <;> rfl

/-- After a file has been renamed, what was reported about the document before stays when it is
saved, and what was reported about another document that has got the old name disappears. -/
theorem not_clearsStale_renamedLines :
    (isLenient (workOn Directory.host lineSettings twoLines renamedLines) 0 = true ∧
      (save Directory.host 0 (workOn Directory.host lineSettings twoLines
        renamedLines)).1.toOption = some () ∧
      ¬ ClearsStale Directory.host lineSettings twoLines renamedLines 0) ∧
    isLenient (workOn Directory.host lineSettings twoLines swappedLines) 0 = true ∧
      (save Directory.host 0 (workOn Directory.host lineSettings twoLines
        swappedLines)).1.toOption = some () ∧
      ¬ ClearsStale Directory.host lineSettings twoLines swappedLines 0 := by
  refine ⟨⟨by decide +kernel, by decide +kernel, fun hclears => ?_⟩, by decide +kernel,
    by decide +kernel, fun hclears => ?_⟩
  · -- reported under the old name when the document could not be shown
    have hvisible : unreadable 0 "/p" ∈ (save Directory.host 0 (workOn Directory.host lineSettings
        twoLines renamedLines)).2.notifications.visible := by decide +kernel
    exact hclears.own _ hvisible (by decide) 3
      ⟨rfl, by decide +kernel, by decide +kernel⟩
  · have hvisible : unreadable 0 "/p" ∈ (workOn Directory.host lineSettings twoLines
        swappedLines).notifications.visible := by decide +kernel
    have hgone : unreadable 0 "/p" ∉ (save Directory.host 0 (workOn Directory.host lineSettings
        twoLines swappedLines)).2.notifications.visible := by decide +kernel
    exact hgone (hclears.others _ hvisible 6 1 ⟨rfl, by decide +kernel, by decide +kernel⟩
      (by decide +kernel))

end Editor

end Dialects

import Dialects.Editor.Notification
import Dialects.Proofs.Action

/-!
# The books of the list of notifications

Listeners are told of every notification when it is added and when it is dismissed. What they have
been told agrees with the list after every run of reports, dismissals and clearings
(`bookkeeping`): each notification has been announced once, in the order of arrival, and has been
dismissed at most once; those of the listed ones whose dismissal has not been announced are the
visible ones. A use of the list announces just those notifications that become visible by it and
those that cease to be.

What a save makes stale is dismissed all at once; to do so twice is to do so once.

## Main definitions

* `Use`: what is done with the list, and `work`, the list after a run;
* `Balanced`: signals and list agree;
* `Announces`: what is announced by one use of the list;
* `Notification.Outdated`: what a save makes stale, and `ClearsOutdated`, what becomes of it.
-/

namespace Dialects

namespace Signal

/-- The notification that is said to have been added. -/
def added? : Signal → Option Nat
  | .added id => some id
  | .dismissed _ => none

/-- The notification that is said to have been dismissed. -/
def dismissed? : Signal → Option Nat
  | .added _ => none
  | .dismissed id => some id

end Signal

namespace Notification

/-- The notification is visible, it is about a save or about a conversion to the lenient dialect,
and it concerns the document or no document in particular; without a document all are concerned. -/
def Outdated (source : Option String) (n : Notification) : Prop :=
  n.dismissed = false ∧ (n.category = saveCategory ∨ n.category = toLenientCategory) ∧
    (source = none ∨ n.source = none ∨ n.source = source)

instance (source : Option String) (n : Notification) : Decidable (n.Outdated source) :=
  inferInstanceAs (Decidable (_ ∧ _ ∧ _))

/-- A notification that is stale is one that is outdated. -/
theorem isStale_eq_decide (source : Option String) (n : Notification) :
    n.isStale source = decide (n.Outdated source) := by
  rw [Bool.eq_iff_iff, decide_eq_true_iff]
  simp [isStale, Outdated, staleOnSave, Option.isNone_iff_eq_none, and_assoc, or_assoc]

/-- What a save dismisses is what is outdated. -/
theorem chosen_eq_decide (source : Option String) (n : Notification) :
    (!n.dismissed && n.isStale source) = decide (n.Outdated source) := by
  rw [isStale_eq_decide, Bool.and_eq_right_iff_imp]
  intro h
  simpa using (of_decide_eq_true h).1

/-- A notification that has been dismissed is not outdated. -/
theorem not_outdated_of_dismissed {source : Option String} {n : Notification}
    (h : n.dismissed = true) : ¬ n.Outdated source := by
  simp [Outdated, h]

end Notification

namespace NotificationCentre

variable {c : NotificationCentre}

/-! ## Uses of the list -/

/-- What is done with the list. Whoever is called when a save fails or succeeds reports the failure
or dismisses what is stale, which are commands as well. -/
inductive Use where
  /-- The list is given a command. -/
  | command (m : Command)
  /-- A notification that was handed out is dismissed, whether or not it is still listed. -/
  | dismissGiven (id : Nat)

/-- The list after a use. A command that fails leaves it as it is. -/
def Use.carryOut (c : NotificationCentre) : Use → NotificationCentre
  | .command m => (c.after m).toOption.getD c
  | .dismissGiven id => c.dismissWhere fun n => n.id == id

/-- The list after a run of uses. -/
def work (us : List Use) : NotificationCentre := us.foldl Use.carryOut empty

/-- A run of uses is followed by one more use. -/
theorem work_concat (us : List Use) (u : Use) : work (us ++ [u]) = u.carryOut (work us) :=
  List.foldl_append

/-- A notification is added, some are dismissed, the list is emptied, or nothing is done. -/
theorem Use.carryOut_induction {R : NotificationCentre → Prop} (hnothing : R c)
    (hadd : ∀ category detail dismissable source, R (c.add category detail dismissable source))
    (hdismiss : ∀ p, R (c.dismissWhere p)) (hclear : R c.clear) (u : Use) : R (u.carryOut c) := by
  cases u with
  | dismissGiven id => exact hdismiss _
  | command m =>
    cases m with
    | report category f source => exact hadd _ _ _ _
    | add category detail dismissable source => exact hadd _ _ _ _
    | dismissStale source => exact hdismiss _
    | clear => exact hclear
    | dismiss index =>
      -- a dismissal by index does nothing if no visible notification has the index
      rw [carryOut, after, dismissAt]
      split
      · exact hnothing
      · exact hdismiss _

/-! ## Signals and list agree -/

/-- What listeners have been told agrees with the list. -/
structure Balanced (c : NotificationCentre) : Prop where
  /-- Each notification has been announced once, in the order of arrival. -/
  added : c.signals.filterMap Signal.added? = List.range c.count
  /-- Each notification has been dismissed at most once. -/
  once : (c.signals.filterMap Signal.dismissed?).Nodup
  /-- Only notifications that have arrived have been dismissed. -/
  known : ∀ id, .dismissed id ∈ c.signals → id < c.count
  /-- The visible notifications are the listed ones whose dismissal has not been announced. -/
  visible : c.visible = c.items.filter fun n => decide (.dismissed n.id ∉ c.signals)
  /-- Notifications are listed in the order of arrival. -/
  arrival : c.items.Pairwise fun m n => m.id < n.id
  /-- Listed notifications have arrived. -/
  listed : ∀ n ∈ c.items, n.id < c.count
  /-- Notifications that have arrived and are no longer listed have been dismissed. -/
  unlisted : ∀ id < c.count, (∀ n ∈ c.items, n.id ≠ id) → .dismissed id ∈ c.signals

namespace Balanced

/-- A listed notification counts as dismissed if its dismissal has been announced. -/
theorem dismissed_iff (h : Balanced c) {n : Notification} (hn : n ∈ c.items) :
    n.dismissed = true ↔ .dismissed n.id ∈ c.signals := by
  have hvisible :
      n ∈ c.visible ↔ n ∈ c.items.filter fun n => decide (.dismissed n.id ∉ c.signals) := by
    rw [h.visible]
  simp only [NotificationCentre.visible, List.mem_filter, hn, true_and, Bool.not_eq_true',
    decide_eq_true_eq] at hvisible
  rw [← Decidable.not_iff_not, Bool.not_eq_true, hvisible]

/-- The list holds no two notifications of the same number. -/
theorem eq_of_id (h : Balanced c) {m n : Notification} (hm : m ∈ c.items) (hn : n ∈ c.items)
    (hid : m.id = n.id) : m = n := by
  obtain ⟨i, hi, rfl⟩ := List.mem_iff_getElem.mp hm
  obtain ⟨j, hj, rfl⟩ := List.mem_iff_getElem.mp hn
  have hlt := List.pairwise_iff_getElem.mp h.arrival
  rcases Nat.lt_trichotomy i j with hij | rfl | hji
  · exact absurd hid (Nat.ne_of_lt (hlt i j hi hj hij))
  · rfl
  · exact absurd hid.symm (Nat.ne_of_lt (hlt j i hj hi hji))

/-- That signals and flags agree is what the visible notifications hang on. -/
theorem of_dismissed_iff
    (hadded : c.signals.filterMap Signal.added? = List.range c.count)
    (honce : (c.signals.filterMap Signal.dismissed?).Nodup)
    (hknown : ∀ id, .dismissed id ∈ c.signals → id < c.count)
    (harrival : c.items.Pairwise fun m n => m.id < n.id) (hlisted : ∀ n ∈ c.items, n.id < c.count)
    (hunlisted : ∀ id < c.count, (∀ n ∈ c.items, n.id ≠ id) → .dismissed id ∈ c.signals)
    (hdismissed : ∀ n ∈ c.items, n.dismissed = true ↔ .dismissed n.id ∈ c.signals) :
    Balanced c where
  added := hadded
  once := honce
  known := hknown
  visible := List.filter_congr fun n hn => by
    rw [Bool.eq_iff_iff, decide_eq_true_eq, ← hdismissed n hn, Bool.not_eq_true', Bool.not_eq_true]
  arrival := harrival
  listed := hlisted
  unlisted := hunlisted

/-- The empty list agrees with what nobody has been told. -/
theorem empty : Balanced NotificationCentre.empty :=
  of_dismissed_iff rfl List.nodup_nil nofun List.Pairwise.nil nofun nofun nofun

/-- A notification that is added is announced once. -/
theorem add (h : Balanced c) (category detail : String) (dismissable : Bool)
    (source : Option String) : Balanced (c.add category detail dismissable source) := by
  have hfresh : Signal.dismissed c.count ∉ c.signals := fun hmem => Nat.lt_irrefl _ (h.known _ hmem)
  refine of_dismissed_iff ?_ ?_ ?_ ?_ ?_ ?_ ?_
  · -- the id of the new notification is the count, which no signal and no item has yet
    simp [NotificationCentre.add, h.added, Signal.added?, List.range_succ]
  · simpa [NotificationCentre.add, List.filterMap_cons, Signal.dismissed?] using h.once
  · intro id hid
    have hold : Signal.dismissed id ∈ c.signals := by simpa [NotificationCentre.add] using hid
    exact Nat.lt_succ_of_lt (h.known id hold)
  · refine List.pairwise_append.mpr ⟨h.arrival, List.pairwise_singleton .., fun m hm n hn => ?_⟩
    obtain rfl := List.mem_singleton.mp hn
    exact h.listed m hm
  · -- what was listed before is still below the count, and the new id is the old count
    intro n hn
    rcases List.mem_append.mp hn with hold | hnew
    · exact Nat.lt_succ_of_lt (h.listed n hold)
    · obtain rfl := List.mem_singleton.mp hnew
      exact Nat.lt_succ_self _
  · intro id hid hne
    -- an unlisted id is not the new one, so that it was issued before
    have hold : id < c.count := by
      refine Nat.lt_of_le_of_ne (Nat.le_of_lt_succ hid) fun heq => ?_
      exact hne _ (List.mem_append_right _ (List.mem_singleton_self _)) heq.symm
    exact List.mem_append_left _ (h.unlisted id hold fun n hn => hne n (List.mem_append_left _ hn))
  · intro n hn
    rcases List.mem_append.mp hn with hold | hnew
    · simpa [NotificationCentre.add] using h.dismissed_iff hold
    · obtain rfl := List.mem_singleton.mp hnew
      simpa [NotificationCentre.add, next] using hfresh

/-- Dismissals are announced for the visible notifications that are chosen. -/
theorem dismissed_mem_dismissWhere {p : Notification → Bool} {id : Nat} :
    .dismissed id ∈ (c.dismissWhere p).signals ↔
      .dismissed id ∈ c.signals ∨ ∃ n ∈ c.visible, p n = true ∧ n.id = id := by
  simp [dismissWhere, NotificationCentre.visible, and_assoc]

/-- Notifications that are dismissed are announced once each. -/
theorem dismissWhere (h : Balanced c) (p : Notification → Bool) : Balanced (c.dismissWhere p) := by
  have hitem : ∀ n' ∈ (c.dismissWhere p).items, ∃ n ∈ c.items, n'.id = n.id ∧
      (n'.dismissed = true ↔ n.dismissed = true ∨ (n.dismissed = false ∧ p n = true)) := by
    intro n' hn'
    obtain ⟨n, hn, rfl⟩ := List.mem_map.mp hn'
    refine ⟨n, hn, ?_⟩
    split <;> simp_all
  refine of_dismissed_iff ?_ ?_ ?_ ?_ ?_ ?_ ?_
  · simp [NotificationCentre.dismissWhere, h.added, List.filterMap_map, Function.comp_def,
      Signal.added?]
  · -- what is dismissed now has not been dismissed before, and no number is listed twice
    have hnew : ((c.items.filter fun n => !n.dismissed && p n).map Notification.id).Nodup :=
      List.pairwise_map.mpr ((h.arrival.filter _).imp Nat.ne_of_lt)
    have hsignals : (c.dismissWhere p).signals.filterMap Signal.dismissed? =
        c.signals.filterMap Signal.dismissed? ++
          (c.items.filter fun n => !n.dismissed && p n).map Notification.id := by
      simp [NotificationCentre.dismissWhere, List.filterMap_map, Function.comp_def,
        Signal.dismissed?]
    rw [hsignals, List.nodup_append]
    refine ⟨h.once, hnew, fun id hold id' hid' heq => ?_⟩
    obtain ⟨n, hn, rfl⟩ := List.mem_map.mp hid'
    obtain ⟨hlisted, hchosen⟩ := List.mem_filter.mp hn
    have hsaid : Signal.dismissed n.id ∈ c.signals := by
      obtain ⟨signal, hsignal, hsome⟩ := List.mem_filterMap.mp hold
      cases signal with
      | added id => cases hsome
      | dismissed id => exact heq ▸ Option.some.inj hsome ▸ hsignal
    simp [(h.dismissed_iff hlisted).mpr hsaid] at hchosen
  · intro id hid
    rcases dismissed_mem_dismissWhere.mp hid with hold | ⟨n, hn, -, rfl⟩
    · exact h.known id hold
    · exact h.listed n (List.mem_filter.mp hn |>.1)
  · refine List.pairwise_map.mpr (h.arrival.imp fun {m n} hlt => ?_)
    split <;> split <;> exact hlt
  · intro n' hn'
    obtain ⟨n, hn, hid, -⟩ := hitem n' hn'
    exact hid ▸ h.listed n hn
  · intro id hid hne
    refine List.mem_append_left _ (h.unlisted id hid fun n hn heq => ?_)
    refine hne _ (List.mem_map_of_mem hn) ?_
    split <;> exact heq
  · intro n' hn'
    obtain ⟨n, hn, hid, hdismissed⟩ := hitem n' hn'
    rw [hdismissed, hid, dismissed_mem_dismissWhere, ← h.dismissed_iff hn]
    refine or_congr_right ⟨fun hchosen => ⟨n, ?_, hchosen.2, rfl⟩, ?_⟩
    · simpa [NotificationCentre.visible] using ⟨hn, hchosen.1⟩
    · rintro ⟨m, hm, hp, hmn⟩
      obtain ⟨hlisted, hvisible⟩ := List.mem_filter.mp hm
      obtain rfl := h.eq_of_id hlisted hn hmn
      exact ⟨by simpa using hvisible, hp⟩

/-- The list may be emptied once all is dismissed. -/
theorem clear (h : Balanced c) : Balanced c.clear := by
  -- emptying the list is like dismissing everything and then forgetting the items
  have hall := h.dismissWhere fun _ => true
  refine of_dismissed_iff hall.added hall.once hall.known List.Pairwise.nil nofun ?_ nofun
  intro id hid _
  by_cases hlisted : ∀ n ∈ (c.dismissWhere fun _ => true).items, n.id ≠ id
  · exact hall.unlisted id hid hlisted
  · obtain ⟨n, hn, rfl⟩ : ∃ n ∈ (c.dismissWhere fun _ => true).items, n.id = id := by
      simpa using hlisted
    refine (hall.dismissed_iff hn).mp ?_
    obtain ⟨m, -, rfl⟩ := List.mem_map.mp hn
    cases hm : m.dismissed <;> simp [hm]

/-- Every use keeps the list in agreement with what listeners have been told. -/
theorem carryOut (h : Balanced c) (u : Use) : Balanced (u.carryOut c) :=
  u.carryOut_induction h h.add h.dismissWhere h.clear

/-- After every run of uses the list agrees with what listeners have been told. -/
theorem work (us : List Use) : Balanced (work us) :=
  List.foldlRecOn us Use.carryOut empty fun _ h u _ => h.carryOut u

end Balanced

/-! ## What one use announces -/

/-- A notification is visible. -/
def Shows (c : NotificationCentre) (id : Nat) : Prop := ∃ n ∈ c.visible, n.id = id

/-- The notifications that become visible are announced as added, and those that cease to be visible
as dismissed. -/
structure Announces (c c' : NotificationCentre) (new : List Signal) : Prop where
  signals : c'.signals = c.signals ++ new
  added : ∀ id, .added id ∈ new ↔ ¬ c.Shows id ∧ c'.Shows id
  dismissed : ∀ id, .dismissed id ∈ new ↔ c.Shows id ∧ ¬ c'.Shows id

/-- What is still visible is what was visible and is not dismissed. -/
theorem mem_visible_dismissWhere {p : Notification → Bool} {n : Notification} :
    n ∈ (c.dismissWhere p).visible ↔ n ∈ c.visible ∧ p n = false := by
  simp only [visible, dismissWhere, List.mem_filter, List.mem_map]
  constructor
  · rintro ⟨⟨m, hm, rfl⟩, hvisible⟩
    split at hvisible
    · contradiction
    · next hchosen =>
      -- a notification that was not chosen is the same afterwards
      rw [if_neg hchosen]
      refine ⟨⟨hm, hvisible⟩, ?_⟩
      rw [hvisible, Bool.true_and] at hchosen
      exact Bool.eq_false_iff.mpr hchosen
  · rintro ⟨⟨hn, hvisible⟩, hfresh⟩
    exact ⟨⟨n, hn, by simp [hfresh]⟩, hvisible⟩

namespace Announces

/-- Nothing has been announced if nothing has been done. -/
theorem refl (c : NotificationCentre) : Announces c c [] :=
  ⟨(List.append_nil _).symm, by simp, by simp⟩

/-- Adding a notification announces that one and nothing else. -/
theorem add (h : Balanced c) (category detail : String) (dismissable : Bool)
    (source : Option String) :
    Announces c (c.add category detail dismissable source) [.added c.count] := by
  have hvisible : (c.add category detail dismissable source).visible =
      c.visible ++ [c.next category detail dismissable source] := by
    simp [visible, NotificationCentre.add, next]
  -- all ids on the list lie below the count
  have hfresh : ¬ c.Shows c.count := by
    rintro ⟨n, hn, hid⟩
    exact Nat.ne_of_lt (h.listed n (List.mem_filter.mp hn).1) hid
  have hshows (id : Nat) : (c.add category detail dismissable source).Shows id ↔
      c.Shows id ∨ c.count = id := by
    simp [Shows, hvisible, or_and_right, exists_or, next]
  refine ⟨rfl, fun id => ?_, fun id => ?_⟩
  · rw [hshows, List.mem_singleton, Signal.added.injEq]
    constructor
    · rintro rfl
      exact ⟨hfresh, .inr rfl⟩
    · rintro ⟨hnot, hold | hnew⟩
      · exact absurd hold hnot
      · exact hnew.symm
  · simpa using fun hshown => (hshows id).mpr (.inl hshown)

/-- Dismissing notifications announces those that cease to be visible. -/
theorem dismissWhere (h : Balanced c) (p : Notification → Bool) :
    ∃ new, Announces c (c.dismissWhere p) new := by
  have hshows (id : Nat) : (c.dismissWhere p).Shows id → c.Shows id := by
    rintro ⟨n, hn, hid⟩
    exact ⟨n, (mem_visible_dismissWhere.mp hn).1, hid⟩
  refine ⟨_, rfl, fun id => ?_, fun id => ?_⟩
  · simpa using fun hnot hshown => hnot (hshows id hshown)
  · -- a dismissal is signalled for what was visible and chosen
    have hmem : Signal.dismissed id ∈
        (c.items.filter fun n => !n.dismissed && p n).map (fun n => Signal.dismissed n.id) ↔
          ∃ n ∈ c.visible, p n = true ∧ n.id = id := by
      simp [visible, and_assoc]
    rw [hmem]
    constructor
    · rintro ⟨n, hn, hp, rfl⟩
      refine ⟨⟨n, hn, rfl⟩, ?_⟩
      rintro ⟨m, hm, hid⟩
      obtain ⟨hvisible, hkept⟩ := mem_visible_dismissWhere.mp hm
      -- no other notification has this id, since ids are issued once
      obtain rfl := h.eq_of_id (List.mem_filter.mp hvisible).1 (List.mem_filter.mp hn).1 hid
      exact absurd hp (Bool.eq_false_iff.mp hkept)
    · rintro ⟨⟨n, hn, rfl⟩, hgone⟩
      refine ⟨n, hn, Bool.not_eq_false _ ▸ fun hkept => hgone ?_, rfl⟩
      exact ⟨n, mem_visible_dismissWhere.mpr ⟨hn, hkept⟩, rfl⟩

/-- To empty the list announces what dismissing everything does. -/
theorem clear (h : Balanced c) : ∃ new, Announces c c.clear new := by
  obtain ⟨new, hall⟩ := dismissWhere h fun _ => true
  -- nothing is visible in either case
  have hnone : (c.dismissWhere fun _ => true).Shows = c.clear.Shows := by
    funext id
    refine propext (iff_of_false ?_ ?_)
    · rintro ⟨n, hn, -⟩
      exact absurd (mem_visible_dismissWhere.mp hn).2 (by decide)
    · rintro ⟨n, hn, -⟩
      exact absurd hn List.not_mem_nil
  exact ⟨new, hall.signals, hnone ▸ hall.added, hnone ▸ hall.dismissed⟩

/-- Every use announces what appears and what disappears. -/
theorem carryOut (h : Balanced c) (u : Use) : ∃ new, Announces c (u.carryOut c) new := by
  refine Use.carryOut_induction (R := fun c' => ∃ new, Announces c c' new) ?_ ?_ ?_ ?_ u
  · exact ⟨[], refl c⟩
  · intro category detail dismissable source
    exact ⟨_, add h category detail dismissable source⟩
  · exact dismissWhere h
  · exact clear h

end Announces

/-! ## What a save makes stale -/

/-- The outdated notifications, and no others, are dismissed, in the order of the list and as many
as are said to be; to do the same once more does nothing. -/
structure ClearsOutdated (source : Option String) (c c' : NotificationCentre) (n : Nat) : Prop where
  signals : c'.signals =
    c.signals ++ (c.items.filter fun n => n.Outdated source).map fun n => .dismissed n.id
  items : c'.items =
    c.items.map fun n => if n.Outdated source then { n with dismissed := true } else n
  number : n = (c.items.filter fun n => n.Outdated source).length
  again : c'.staleCount source = 0 ∧ c'.dismissStale source = c'

/-- A save dismisses what is outdated, and nothing else. -/
theorem clearsOutdated (c : NotificationCentre) (source : Option String) :
    ClearsOutdated source c (c.dismissStale source) (c.staleCount source) := by
  have hcleared (c : NotificationCentre) : c.dismissStale source =
      ⟨c.items.map fun n => if n.Outdated source then { n with dismissed := true } else n, c.count,
        c.signals ++ (c.items.filter fun n => n.Outdated source).map fun n => .dismissed n.id⟩ := by
    simp only [dismissStale, dismissWhere, Notification.chosen_eq_decide, decide_eq_true_eq]
  have hcount (c : NotificationCentre) :
      c.staleCount source = (c.items.filter fun n => n.Outdated source).length := by
    simp only [staleCount, List.countP_eq_length_filter,
      funext (Notification.isStale_eq_decide source)]
  -- what has been dismissed is not outdated any more, and the rest was not
  have hleft : ∀ n' ∈ (c.dismissStale source).items, ¬ n'.Outdated source := by
    intro n' hn'
    rw [hcleared] at hn'
    obtain ⟨n, -, rfl⟩ := List.mem_map.mp hn'
    split
    · exact Notification.not_outdated_of_dismissed rfl
    · assumption
  have hnone : (c.dismissStale source).items.filter (fun n => n.Outdated source) = [] := by
    simpa using hleft
  have hsame : ((c.dismissStale source).items.map fun n =>
      if n.Outdated source then { n with dismissed := true } else n) =
        (c.dismissStale source).items :=
    (List.map_congr_left fun n hn => if_neg (hleft n hn)).trans (List.map_id' _)
  refine ⟨?_, ?_, hcount c, ?_, ?_⟩
  · rw [hcleared]
  · rw [hcleared]
  · rw [hcount, hnone, List.length_nil]
  · rw [hcleared (c.dismissStale source), hnone, hsame, List.map_nil, List.append_nil]

/-! ## Whole runs -/

end NotificationCentre

end Dialects

import Mathlib.Data.List.Induction
import Mathlib.Data.List.Basic
import Dialects.Proofs.Events.Record

/-!
# Subscriptions of an emitter

A subscription is live from when it is made until its own disposable is disposed or the emitter is
cleared. An emitter keeps no subscriptions but callbacks, and a disposable takes back the first
callback that is equal to its own. So an emitter may lose another subscription than the one that
ends: when a callback is subscribed again after the emitter has been cleared, and when it is
subscribed twice with another one in between. These are the only cases (`independent_iff`).

## Main definitions

* `live`: the subscriptions of an emitter that are live after some events;
* `held`: the callbacks of the emitter itself after these events;
* `Independent`: the emitter always has the callbacks of its live subscriptions;
* `Apart`: a disposable reaches no other subscription than its own.

## Main results

* `Faithful.pursue`: the record of a run tells what its emitters hold;
* `independent_iff`: the subscriptions of an emitter are independent just when each one that is
  ended is apart from the live ones;
* `independent_of_callbacks`: so they are in a run that subscribes no callback twice.
-/

namespace Dialects.Events

open Dialects.Action

variable {ν : Type} {e n : Nat} {h : List Event} {event : Event} {x : Subscription}
  {L : List Subscription} {s s' : Scene ν}

/-! ## Live subscriptions -/

/-- How the live subscriptions of an emitter change with an event. -/
def Event.relive (e : Nat) (L : List Subscription) : Event → List Subscription
  | .subscribed x => if x.emitter = e then L ++ [x] else L
  | .unsubscribed x => if x.emitter = e then L.filter (· ≠ x) else L
  | .cleared e' => if e' = e then [] else L
  | .ran _ => L

/-- The subscriptions of an emitter that are live after some events, in the order in which they were
made: each one from when it is made until its own disposable takes it back or the emitter is
cleared. -/
def live (e : Nat) (h : List Event) : List Subscription := h.foldl (Event.relive e) []

/-- How an emitter changes with an event. -/
def Event.hold (e : Nat) (E : Emitter Nat) : Event → Emitter Nat
  | .subscribed x => if x.emitter = e then E.subscribe x.callback else E
  | .unsubscribed x => if x.emitter = e then E.unsubscribe x.callback else E
  | .cleared e' => if e' = e then .empty else E
  | .ran _ => E

/-- What an emitter holds after some events. -/
def held (e : Nat) (h : List Event) : Emitter Nat := h.foldl (Event.hold e) .empty

/-- The subscription that is made in an event. -/
def Event.made? : Event → Option Subscription
  | .subscribed x => some x
  | _ => none

/-- The subscriptions that have been made in some events. -/
def made (h : List Event) : List Subscription := h.filterMap Event.made?

/-- After each of the events the emitter has the callbacks of the subscriptions that are live then,
in the same order. -/
def Independent (e : Nat) (h : List Event) : Prop :=
  ∀ before, before <+: h → (held e before).callbacks = (live e before).map Subscription.callback

/-- What holds of each subscription that is ended by its disposable, and of the events before. -/
def WhenEnded (P : List Event → Subscription → Prop) (h : List Event) : Prop :=
  ∀ before x, before ++ [.unsubscribed x] <+: h → P before x

/-- The disposable of a subscription finds no other one that it takes for its own. A live one has to
be the first with its callback, but for those that it follows without another callback in between;
one that is not live any more must not have its callback among the live ones. -/
def Apart (x : Subscription) (L : List Subscription) : Prop :=
  if x ∈ L then ∀ y z, [y, z, x].Sublist L → y.callback = x.callback → z.callback = x.callback
  else ∀ y ∈ L, y.callback ≠ x.callback

/-- The live subscriptions after one more event. -/
theorem live_concat (e : Nat) (h : List Event) (event : Event) :
    live e (h ++ [event]) = event.relive e (live e h) := List.foldl_concat _ _ _ _

/-- What is held after one more event. -/
theorem held_concat (e : Nat) (h : List Event) (event : Event) :
    held e (h ++ [event]) = event.hold e (held e h) := List.foldl_concat _ _ _ _

theorem made_append (h h' : List Event) : made (h ++ h') = made h ++ made h' :=
  List.filterMap_append

/-- The live subscriptions are among those that have been made to the emitter. -/
theorem live_sublist_made (e : Nat) (h : List Event) :
    (live e h).Sublist ((made h).filter fun x => x.emitter = e) := by
  induction h using List.reverseRecOn with
  | nil => exact .slnil
  | append_singleton h event ih =>
    have hold : (live e h).Sublist ((made (h ++ [event])).filter fun x => x.emitter = e) := by
      rw [made_append, List.filter_append]
      exact ih.trans (List.sublist_append_left _ _)
    -- a live subscription is made, and is only ever taken away again
    rw [live_concat]
    cases event with
    | subscribed x =>
      simp only [Event.relive]
      split
      · rename_i hx
        rw [made_append, List.filter_append]
        refine ih.append ?_
        simp [made, Event.made?, hx]
      · exact hold
    | unsubscribed x =>
      simp only [Event.relive]
      split
      · exact List.filter_sublist.trans hold
      · exact hold
    | cleared e' =>
      simp only [Event.relive]
      split
      · exact List.nil_sublist _
      · exact hold
    | ran n => exact hold

/-- A live subscription has been made, to the emitter in question. -/
theorem mem_live (hx : x ∈ live e h) : x ∈ made h ∧ x.emitter = e := by
  simpa using (live_sublist_made e h).subset hx

/-- No subscription is live twice if none is made twice. -/
theorem nodup_live (hmade : (made h).Nodup) (e : Nat) : (live e h).Nodup :=
  hmade.sublist ((live_sublist_made e h).trans List.filter_sublist)

/-- Of the events before one more event nothing new is asked. -/
theorem whenEnded_concat {P : List Event → Subscription → Prop} :
    WhenEnded P (h ++ [event]) ↔ WhenEnded P h ∧ ∀ x, event = .unsubscribed x → P h x := by
  constructor
  · intro hall
    refine ⟨fun before x hx => hall before x (hx.trans (List.prefix_append _ _)), ?_⟩
    rintro x rfl
    exact hall h x (List.prefix_refl _)
  · rintro ⟨hold, hnew⟩ before x hx
    -- a beginning of the longer record is one of the old record or the longer record itself
    rcases List.prefix_concat_iff.mp hx with heq | hx
    · obtain ⟨rfl, hevent⟩ := List.append_inj' heq rfl
      exact hnew x (List.singleton_inj.mp hevent).symm
    · exact hold before x hx

/-- With one more event the emitter has to be in step once more. -/
theorem independent_concat : Independent e (h ++ [event]) ↔ Independent e h ∧
    (held e (h ++ [event])).callbacks = (live e (h ++ [event])).map Subscription.callback := by
  constructor
  · intro hall
    exact ⟨fun before hx => hall before (hx.trans (List.prefix_append _ _)),
      hall _ (List.prefix_refl _)⟩
  · rintro ⟨hold, hnew⟩ before hx
    -- a beginning of the longer record is one of the old record or the longer record itself
    rcases List.prefix_concat_iff.mp hx with rfl | hx
    · exact hnew
    · exact hold before hx

/-! ## What a disposable takes back -/

/-- Taking away what is not there takes nothing away. -/
theorem filter_ne_of_notMem (hx : x ∉ L) : L.filter (· ≠ x) = L :=
  List.filter_eq_self.mpr fun _ hy => decide_eq_true (ne_of_mem_of_not_mem hy hx)

theorem filter_ne_cons_self (hx : x ∉ L) : (x :: L).filter (· ≠ x) = L := by
  rw [List.filter_cons_of_neg (by simp), filter_ne_of_notMem hx]

theorem filter_ne_cons {y : Subscription} (hy : y ≠ x) :
    (y :: L).filter (· ≠ x) = y :: L.filter (· ≠ x) :=
  List.filter_cons_of_pos (decide_eq_true hy)

/-- With the same callback in front, a subscription seems to be the first one just when all those
before it have its callback too. -/
theorem map_eq_cons_iff (hL : L.Nodup) (hx : x ∈ L) :
    L.map Subscription.callback =
        x.callback :: (L.filter (· ≠ x)).map Subscription.callback ↔
      ∀ z, [z, x].Sublist L → z.callback = x.callback := by
  induction L with
  | nil => cases hx
  | cons y L ih =>
    obtain ⟨hy, hL⟩ := List.nodup_cons.mp hL
    by_cases heq : y = x
    · subst heq
      refine iff_of_true (by rw [filter_ne_cons_self hy, List.map_cons]) fun z hz => ?_
      rcases List.sublist_cons_iff.mp hz with hz | ⟨r, hr, hz⟩
      · exact absurd (hz.subset (by simp)) hy
      · obtain ⟨-, rfl⟩ := List.cons.inj hr
        exact absurd (List.singleton_sublist.mp hz) hy
    · have hx : x ∈ L := (List.mem_cons.mp hx).resolve_left (Ne.symm heq)
      -- what stands before `x` in the longer list is what stood before it, and the new head
      have hcons (z : Subscription) : [z, x].Sublist (y :: L) ↔ [z, x].Sublist L ∨ z = y := by
        simp [List.sublist_cons_iff, hx]
      simp only [hcons, or_imp, forall_and, forall_eq]
      rw [filter_ne_cons heq, List.map_cons, List.map_cons, List.cons.injEq, and_comm, ← ih hL hx]
      exact and_congr_left fun hcallback => by rw [hcallback]

/-- The first of the live subscriptions is apart from those behind it. -/
theorem apart_head (hx : x ∉ L) : Apart x (x :: L) := by
  rw [Apart, if_pos List.mem_cons_self]
  intro y z hz
  rcases List.sublist_cons_iff.mp hz with hz | ⟨r, hr, hz⟩
  · exact absurd (hz.subset (by simp)) hx
  · obtain ⟨-, rfl⟩ := List.cons.inj hr
    exact absurd (hz.subset (by simp)) hx

/-- A subscription with another callback in front is of no account. -/
theorem apart_cons_of_ne {y : Subscription} (hy : y.callback ≠ x.callback) :
    Apart x (y :: L) ↔ Apart x L := by
  have hne : x ≠ y := fun heq => hy (congrArg Subscription.callback heq.symm)
  by_cases hx : x ∈ L
  · rw [Apart, if_pos (List.mem_cons_of_mem y hx), Apart, if_pos hx]
    -- a part that starts with the new first one is none about the callback
    refine ⟨fun hapart y' z hz => hapart y' z (hz.cons y), fun hapart y' z hz hy' => ?_⟩
    rcases List.sublist_cons_iff.mp hz with hz | ⟨r, hr, -⟩
    · exact hapart y' z hz hy'
    · obtain ⟨rfl, -⟩ := List.cons.inj hr
      exact absurd hy' hy
  · simp [Apart, hx, hne, hy]

/-- Behind another subscription of its callback a subscription is apart only if none but such ones
stand before it. -/
theorem apart_cons_of_eq {y : Subscription} (hne : y ≠ x) (hy : y.callback = x.callback) :
    Apart x (y :: L) ↔ x ∈ L ∧ ∀ z, [z, x].Sublist L → z.callback = x.callback := by
  by_cases hx : x ∈ L
  · rw [Apart, if_pos (List.mem_cons_of_mem y hx), and_iff_right hx]
    refine ⟨fun hapart z hz => hapart y z (hz.cons_cons y) hy, fun hapart y' z hz _ => ?_⟩
    rcases List.sublist_cons_iff.mp hz with hz | ⟨r, hr, hz⟩
    · exact hapart z (List.sublist_of_cons_sublist hz)
    · obtain ⟨-, rfl⟩ := List.cons.inj hr
      exact hapart z hz
  · simp [Apart, hx, Ne.symm hne, hy]

/-- Taking back the first equal callback is taking back the subscription itself just when it is
apart from the others. -/
theorem erase_callbacks_iff (hL : L.Nodup) :
    (L.map Subscription.callback).erase x.callback =
      (L.filter (· ≠ x)).map Subscription.callback ↔ Apart x L := by
  induction L with
  | nil => simp [Apart]
  | cons y L ih =>
    obtain ⟨hy, hL⟩ := List.nodup_cons.mp hL
    by_cases heq : y = x
    · subst heq
      refine iff_of_true (by rw [filter_ne_cons_self hy, List.map_cons, List.erase_cons_head]) ?_
      exact apart_head hy
    · rw [filter_ne_cons heq, List.map_cons, List.map_cons]
      by_cases hcallback : y.callback = x.callback
      -- The entry of `y` is taken for that of `x`: what is left has to look as if it were not so.
      · rw [apart_cons_of_eq heq hcallback, hcallback, List.erase_cons_head]
        by_cases hx : x ∈ L
        · rw [map_eq_cons_iff hL hx, and_iff_right hx]
        · refine iff_of_false (fun hmap => ?_) fun h => hx h.1
          rw [filter_ne_of_notMem hx] at hmap
          exact List.cons_ne_self _ _ hmap.symm
      · rw [apart_cons_of_ne hcallback, List.erase_cons_tail (by simpa using hcallback),
          List.cons_inj_right, ih hL]

/-- An event keeps the emitter in step with the live subscriptions, unless it is the end of a
subscription that is not apart from them. -/
theorem hold_relive_iff (hL : L.Nodup) :
    (event.hold e ⟨L.map Subscription.callback⟩).callbacks =
        (event.relive e L).map Subscription.callback ↔
      ∀ x, event = .unsubscribed x → x.emitter = e → Apart x L := by
  cases event with
  | subscribed x =>
    simp only [Event.hold, Event.relive]
    -- an event of another emitter changes neither side
    split <;> simp
  | unsubscribed x =>
    simp only [Event.hold, Event.relive]
    split
    · rename_i hx
      simpa [hx] using erase_callbacks_iff hL
    · rename_i hx
      simp [hx]
  | cleared e' =>
    simp only [Event.hold, Event.relive]
    split <;> simp [Emitter.empty]
  | ran n => simp [Event.hold, Event.relive]

/-- The subscriptions are independent just when each one that is ended is apart. -/
theorem independent_iff_apart (hmade : (made h).Nodup) :
    Independent e h ↔ WhenEnded (fun before x => x.emitter = e → Apart x (live e before)) h := by
  induction h using List.reverseRecOn with
  | nil =>
    refine iff_of_true (fun before hbefore => ?_) fun before x hx => ?_
    · obtain rfl := List.prefix_nil.mp hbefore
      rfl
    · exact absurd (List.prefix_nil.mp hx) (by simp)
  | append_singleton h event ih =>
    rw [made_append] at hmade
    have hmade : (made h).Nodup := hmade.sublist (List.sublist_append_left _ _)
    rw [independent_concat, whenEnded_concat, ih hmade]
    -- Before the last event the emitter is in step, so that only this event decides.
    refine and_congr_right fun hindependent => ?_
    have hheld : held e h = ⟨(live e h).map Subscription.callback⟩ :=
      congrArg Emitter.mk ((ih hmade).mpr hindependent h (List.prefix_refl _))
    rw [held_concat, live_concat, hheld]
    exact hold_relive_iff (nodup_live hmade e)

/-- If no callback is subscribed twice to an emitter, each subscription is apart from the others when
it is ended. -/
theorem apart_of_callbacks (hmade : (made h).Nodup)
    (hended : WhenEnded (fun before x => x ∈ made before) h)
    (hcallbacks : ∀ x ∈ made h, ∀ y ∈ made h, x.emitter = e → y.emitter = e →
      x.callback = y.callback → x = y) :
    WhenEnded (fun before x => x.emitter = e → Apart x (live e before)) h := by
  intro before x hx hemitter
  obtain ⟨after, rfl⟩ := hx
  have hbefore {y : Subscription} (hy : y ∈ made before) :
      y ∈ made (before ++ [.unsubscribed x] ++ after) := by
    rw [made_append, made_append]
    exact List.mem_append_left _ (List.mem_append_left _ hy)
  have hmem : x ∈ made before := hended before x (List.prefix_append _ _)
  -- a live subscription with the same callback is the same one
  have hsame (y : Subscription) (hy : y ∈ live e before) (hcallback : y.callback = x.callback) :
      y = x :=
    hcallbacks y (hbefore (mem_live hy).1) x (hbefore hmem) (mem_live hy).2 hemitter hcallback
  -- no subscription is made twice, and thus none is live twice
  have hlive : (live e before).Nodup := by
    refine nodup_live ?_ e
    rw [made_append, made_append] at hmade
    exact hmade.sublist ((List.sublist_append_left _ _).trans (List.sublist_append_left _ _))
  rw [Apart]
  split
  · intro y z hyz hy
    obtain rfl := hsame y (hyz.subset (by simp)) hy
    exact absurd (hlive.sublist hyz) (by simp)
  · rename_i hnot
    intro y hy hcallback
    exact hnot (hsame y hy hcallback ▸ hy)

/-! ## What the record tells of a scene -/

/-- What an object holds as an emitter. -/
def Object.contents : Object ν → Emitter Nat
  | .emitter E => E
  | _ => .empty

/-- The emitter and the callback of the subscription that a disposable ends. -/
def Object.ends? : Object ν → Option (Nat × Nat)
  | .disposable (some (.unsubscribe e c)) _ => some (e, c)
  | _ => none

namespace Scene

/-- What the emitter that has a number holds. -/
def contents (s : Scene ν) (e : Nat) : Emitter Nat :=
  (s.objects[e]?.map Object.contents).getD .empty

/-- The emitter and the callback of the subscription that the object that has a number ends. -/
def ends? (s : Scene ν) (n : Nat) : Option (Nat × Nat) := s.objects[n]?.bind Object.ends?

/-- Replacing an object changes what it holds itself. -/
theorem contents_put {o₀ : Object ν} (hn : s.objects[n]? = some o₀) (o : Object ν) (e : Nat) :
    (s.put n o).contents e = if n = e then o.contents else s.contents e := by
  rw [contents, getElem?_put hn]
  split <;> rfl

/-- An object that is there holds its contents. -/
theorem contents_eq {o : Object ν} (hn : s.objects[n]? = some o) : s.contents n = o.contents := by
  rw [contents, hn]
  rfl

/-- An object that is replaced by one of its sort goes on holding what it held. -/
theorem contents_put_of_eq {o₀ o : Object ν} (hn : s.objects[n]? = some o₀)
    (ho : o.contents = o₀.contents) (e : Nat) : (s.put n o).contents e = s.contents e := by
  rw [contents_put hn]
  split
  · rename_i heq
    rw [← heq, contents_eq hn, ho]
  · rfl

/-- An emitter changes as an event says that is about no other one. -/
theorem contents_put_emitter (event : Event) {E E' : Emitter Nat}
    (he : s.objects[e]? = some (.emitter E))
    (hself : event.hold e E = E') (hother : ∀ e' E', e ≠ e' → event.hold e' E' = E') (e' : Nat) :
    (s.put e (.emitter E')).contents e' = event.hold e' (s.contents e') := by
  -- the emitter itself changes as the event says, and any other one stays
  rw [contents_put he]
  split
  · rename_i heq
    rw [← heq, contents_eq he]
    exact hself.symm
  · rename_i hne
    exact (hother e' _ hne).symm

/-- A new object that holds nothing changes no emitter. -/
theorem contents_of_append {o : Object ν} (hs : s'.objects = s.objects ++ [o])
    (ho : o.contents = .empty) (e : Nat) : s'.contents e = s.contents e := by
  rw [contents, hs, List.getElem?_append]
  split
  · rfl
  · rename_i hlt
    rw [contents, List.getElem?_eq_none (Nat.le_of_not_lt hlt)]
    cases e - s.objects.length <;> simp [ho]

/-- Replacing an object changes what it ends itself. -/
theorem ends?_put {o₀ : Object ν} (hn : s.objects[n]? = some o₀) (o : Object ν) (m : Nat) :
    (s.put n o).ends? m = if n = m then o.ends? else s.ends? m := by
  rw [ends?, getElem?_put hn]
  split <;> rfl

/-- A new object ends what it says. -/
theorem ends?_of_append {o : Object ν} (hs : s'.objects = s.objects ++ [o]) (m : Nat) :
    s'.ends? m = if m = s.objects.length then o.ends? else s.ends? m := by
  rw [ends?, hs, List.getElem?_append]
  split <;> split
  · omega
  · rfl
  · simp_all
  · have hnew : [o].length ≤ m - s.objects.length := by simp only [List.length_singleton]; omega
    rw [ends?, List.getElem?_eq_none hnew, List.getElem?_eq_none (by omega)]

end Scene

open Scene

theorem Object.IsFresh.contents_eq {o : Object ν} (ho : o.IsFresh) : o.contents = .empty := by
  cases o with
  | emitter E => exact ho
  | _ => rfl

theorem Object.IsFresh.ends?_eq {o : Object ν} (ho : o.IsFresh) : o.ends? = none := by
  match o with
  | .disposable (some (.unsubscribe e c)) _ => exact absurd rfl (ho.1 e c)
  | .disposable (some (.run _)) _ | .disposable none _ | .emitter _ | .group _ _ => rfl

/-- A scene has changed with these events: its emitters as the events say, at most one subscription
has been made, with a new disposable, and only such subscriptions have been ended whose disposables
were there. -/
structure Follows (t t' : Recorded ν) (new : List Event) : Prop where
  record : t'.2 = t.2 ++ new
  contents : ∀ e, t'.1.contents e = new.foldl (Event.hold e) (t.1.contents e)
  grows : t.1.objects.length ≤ t'.1.objects.length
  makes : made new = [] ∨ ∃ x, made new = [x] ∧ x.handle = t.1.objects.length ∧
    x.handle < t'.1.objects.length
  ends : ∀ n e c, t'.1.ends? n = some (e, c) → t.1.ends? n = some (e, c) ∨ ⟨e, n, c⟩ ∈ made new
  ended : ∀ x, .unsubscribed x ∈ new → t.1.ends? x.handle = some (x.emitter, x.callback)

/-- An object is replaced by one that ends no subscription. -/
theorem Follows.put {o₀ o : Object ν} {new : List Event} (hn : s.objects[n]? = some o₀)
    (ho : o.ends? = none)
    (hcontents : ∀ e, (s.put n o).contents e = new.foldl (Event.hold e) (s.contents e))
    (hmade : made new = []) (hended : ∀ x, .unsubscribed x ∉ new) :
    Follows (s, h) (s.put n o, h ++ new) new where
  record := rfl
  contents := hcontents
  grows := Nat.le_of_eq List.length_set.symm
  makes := .inl hmade
  ends m e c hm := by
    -- an object that ends a subscription was there before, since the new one ends none
    rw [ends?_put hn, ho] at hm
    split at hm
    · cases hm
    · exact .inl hm
  ended x hx := absurd hx (hended x)

/-- An object is replaced, and no emitter has changed. -/
theorem Follows.put_of_eq {o₀ o : Object ν} (hn : s.objects[n]? = some o₀) (ho : o.ends? = none)
    (hcontents : o.contents = o₀.contents) : Follows (s, h) (s.put n o, h) [] := by
  have hput : Follows (s, h) (s.put n o, h ++ []) [] :=
    .put hn ho (contents_put_of_eq hn hcontents) rfl nofun
  rwa [List.append_nil] at hput

/-- No object is touched. -/
theorem Follows.of_objects (hs : s'.objects = s.objects) : Follows (s, h) (s', h) [] where
  record := (List.append_nil _).symm
  contents e := by
    show s'.contents e = s.contents e
    rw [Scene.contents, Scene.contents, hs]
  grows := Nat.le_of_eq (congrArg List.length hs.symm)
  makes := .inl rfl
  ends n e c hn := by
    rw [ends?, hs] at hn
    exact .inl hn
  ended := nofun

/-- An object is made that ends no subscription. -/
theorem Follows.of_append {o : Object ν} (hfresh : o.IsFresh)
    (hs : s'.objects = s.objects ++ [o]) : Follows (s, h) (s', h) [] where
  record := (List.append_nil _).symm
  contents := contents_of_append hs hfresh.contents_eq
  grows := by simp [hs]
  makes := .inl rfl
  ends n e c hn := by
    rw [ends?_of_append hs, hfresh.ends?_eq] at hn
    split at hn
    · cases hn
    · exact .inl hn
  ended := nofun

/-- A callback is subscribed, with a new disposable for it. -/
theorem Follows.subscribe {c : Nat} {E : Emitter Nat} (he : s.objects[e]? = some (.emitter E))
    (hs : s'.objects = s.objects.set e (.emitter (E.subscribe c)) ++
      [.disposable (some (.unsubscribe e c)) false]) :
    Follows (s, h) (s', h ++ [.subscribed ⟨e, s.objects.length, c⟩])
      [.subscribed ⟨e, s.objects.length, c⟩] where
  record := rfl
  contents e' := by
    rw [contents_of_append (s := s.put e (.emitter (E.subscribe c))) hs rfl e']
    exact contents_put_emitter (.subscribed ⟨e, s.objects.length, c⟩) he (if_pos rfl)
      (fun e' E' hne => if_neg hne) e'
  grows := by simp [hs]
  makes := .inr ⟨_, rfl, rfl, by simp [hs]⟩
  ends n e' c' hn := by
    have hlength : (s.put e (.emitter (E.subscribe c))).objects.length = s.objects.length :=
      List.length_set
    rw [ends?_of_append (s := s.put e (.emitter (E.subscribe c))) hs, hlength] at hn
    -- only the new disposable ends the new subscription
    split at hn
    · rename_i heq
      obtain ⟨rfl, rfl⟩ := Prod.mk.inj (Option.some.inj hn)
      exact .inr (by simp [heq, Dialects.Events.made, Event.made?])
    · rw [ends?_put he] at hn
      split at hn
      · cases hn
      · exact .inl hn
  ended := by simp

/-- The disposable of a subscription is disposed, and takes the callback back. -/
theorem Follows.unsubscribe {c : Nat} {E : Emitter Nat}
    (hn : s.objects[n]? = some (.disposable (some (.unsubscribe e c)) false))
    (he : s.objects[e]? = some (.emitter E)) :
    Follows (s, h) ((s.put n (.disposable none true)).put e (.emitter (E.unsubscribe c)),
      h ++ [.ran n, .unsubscribed ⟨e, n, c⟩]) [.ran n, .unsubscribed ⟨e, n, c⟩] := by
  have he' : (s.put n (.disposable none true)).objects[e]? = some (.emitter E) :=
    (emitter_put_disposable_iff hn).mpr he
  -- the disposable is marked first, so that the emitter still has the callback then
  refine ⟨rfl, fun e' => ?_, ?_, .inl rfl, fun m e' c' hm => .inl ?_, fun x hx => ?_⟩
  · have hlast := contents_put_emitter (.unsubscribed ⟨e, n, c⟩) he' (if_pos rfl)
      (fun e' E' hne => if_neg hne) e'
    rwa [contents_put_of_eq (o := .disposable none true) hn rfl] at hlast
  · simp [Scene.put]
  · rw [ends?_put he', ends?_put hn] at hm
    split at hm
    · cases hm
    · split at hm
      · cases hm
      · exact hm
  · obtain rfl : x = ⟨e, n, c⟩ := by simpa using hx
    rw [ends?, hn]
    rfl

/-- Every step is followed by the events that it puts on record. -/
theorem Step.exists_follows {t t' : Recorded ν} (hstep : Step t t') : ∃ new, Follows t t' new := by
  cases hstep with
  | aside hs => exact ⟨[], .of_objects hs⟩
  | made hfresh hs => exact ⟨[], .of_append hfresh hs⟩
  | subscribed he hs => exact ⟨_, .subscribe he hs⟩
  | @cleared s h e E he =>
    refine ⟨_, .put he rfl (fun e' => ?_) rfl (by simp)⟩
    exact contents_put_emitter (.cleared e) he (if_pos rfl) (fun e' E' hne => if_neg hne) e'
  | closed hg => exact ⟨[], .put_of_eq hg rfl rfl⟩
  | regrouped hg hitems => exact ⟨[], .put_of_eq hg rfl rfl⟩
  | disposed hn => exact ⟨[], .put_of_eq hn rfl rfl⟩
  | ran hn => exact ⟨_, .put hn rfl (contents_put_of_eq hn rfl) rfl (by simp)⟩
  | unsubscribed hn he => exact ⟨_, .unsubscribe hn he⟩

/-- The record of a scene is about its emitters and disposables. -/
structure Faithful (t : Recorded ν) : Prop where
  held : ∀ e, t.1.contents e = held e t.2
  numbered : ∀ x ∈ made t.2, x.handle < t.1.objects.length
  distinct : (made t.2).Nodup
  owned : ∀ n e c, t.1.ends? n = some (e, c) → ⟨e, n, c⟩ ∈ made t.2
  ended : WhenEnded (fun before x => x ∈ made before) t.2

/-- The record of a scene without objects tells what they hold. -/
theorem Faithful.empty : Faithful ((.empty, []) : Recorded ν) where
  held _ := rfl
  numbered := nofun
  distinct := .nil
  owned := nofun
  ended _ _ hx := absurd (List.prefix_nil.mp hx) (by simp)

/-- A record stays one of subscriptions that were made before they ended, if the new events end only
such ones. -/
theorem whenEnded_made_append {new : List Event}
    (hold : WhenEnded (fun before x => x ∈ made before) h)
    (hnew : ∀ x, .unsubscribed x ∈ new → x ∈ made h) :
    WhenEnded (fun before x => x ∈ made before) (h ++ new) := by
  -- on the new events from the last one back, since each is about those before it
  induction new using List.reverseRecOn with
  | nil => rwa [List.append_nil]
  | append_singleton new event ih =>
    rw [← List.append_assoc, whenEnded_concat]
    refine ⟨ih fun x hx => hnew x (List.mem_append_left _ hx), ?_⟩
    rintro x rfl
    rw [made_append]
    exact List.mem_append_left _ (hnew x (by simp))

/-- A record goes on telling what the emitters hold, if its new events follow what happens. -/
theorem Faithful.follows {t t' : Recorded ν} {new : List Event} (hf : Faithful t)
    (hnew : Follows t t' new) : Faithful t' := by
  obtain ⟨hrecord, hcontents, hgrows, hmakes, hends, hended⟩ := hnew
  refine ⟨fun e => ?_, ?_, ?_, fun n e c hn => ?_, ?_⟩
  · rw [hcontents, hf.held, hrecord]
    exact List.foldl_append.symm
  · rw [hrecord, made_append]
    intro y hy
    rcases List.mem_append.mp hy with hy | hy
    · exact Nat.lt_of_lt_of_le (hf.numbered y hy) hgrows
    · rcases hmakes with hnone | ⟨x, hx, -, hlt⟩
      · rw [hnone] at hy
        cases hy
      · rw [hx] at hy
        exact List.mem_singleton.mp hy ▸ hlt
  · rw [hrecord, made_append]
    rcases hmakes with hnone | ⟨x, hx, hhandle, -⟩
    · rw [hnone, List.append_nil]
      exact hf.distinct
    · -- the disposable of the new subscription is new
      rw [hx]
      refine List.nodup_append.mpr ⟨hf.distinct, List.pairwise_singleton _ x, fun y hy z hz => ?_⟩
      obtain rfl := List.mem_singleton.mp hz
      rintro rfl
      exact absurd (hf.numbered y hy) (by omega)
  · rw [hrecord, made_append, List.mem_append]
    exact (hends n e c hn).imp_left (hf.owned n e c)
  · rw [hrecord]
    exact whenEnded_made_append hf.ended fun x hx => hf.owned _ _ _ (hended x hx)

/-- After any run the record tells what the emitters hold. -/
theorem Faithful.pursue (ts : List (Nat × Scene.Task ν)) :
    Faithful (Recorded.pursue ts ((.empty, []) : Recorded ν)) := by
  refine (Recorded.steps_pursue ts _).keep (fun t t' hstep hf => ?_) Faithful.empty
  obtain ⟨new, hnew⟩ := hstep.exists_follows
  exact hf.follows hnew

/-! ## What an emitter calls -/

/-- Calls the callback that has a number. -/
def Scene.callBack (depth : Nat) (args : List ν) (c : Nat) : Action (Scene ν) Unit := do
  match (← .ask Scene.callbacks)[c]? with
  | some r => carryOut depth (.call r args)
  | none => pure ()

/-- An emitter calls what it holds, one callback after the other, up to one that fails. -/
theorem Scene.carryOut_emit {E : Emitter Nat} {name : String} (hname : s.names.lookup name = some e)
    (he : s.objects[e]? = some (.emitter E)) (depth : Nat) (args : List ν) :
    carryOut (depth + 1) (.deed (.emit name args)) s =
      E.callbacks.forM (callBack depth args) s := by
  exact (bind_of_ok (number_apply hname)).trans (bind_of_ok (emitter_apply he))

/-- After every run in a scene, whatever its callbacks and actions do, the record says what an
emitter holds, and a subscription that has been ended by its disposable is one that was made before.
The subscriptions of an emitter are independent just when each of those that were ended was apart
from the live ones at the time. Then the emitter has as many callbacks as there are live
subscriptions, and calls the callback of each of them, once for each and in the order in which they
were made, up to a callback that fails. -/
theorem independent_iff (ts : List (Nat × Scene.Task ν)) (e : Nat) :
    let t := Recorded.pursue ts (.empty, [])
    t.1 = Scene.pursue ts .empty ∧ t.1.contents e = held e t.2 ∧
      WhenEnded (fun before x => x ∈ made before) t.2 ∧
      (Independent e t.2 ↔
        WhenEnded (fun before x => x.emitter = e → Apart x (live e before)) t.2) ∧
      (Independent e t.2 →
        (t.1.contents e).size = (live e t.2).length ∧
        ∀ depth name args E, t.1.names.lookup name = some e →
          t.1.objects[e]? = some (.emitter E) →
            Scene.carryOut (depth + 1) (.deed (.emit name args)) t.1 =
              (live e t.2).forM (fun x => Scene.callBack depth args x.callback) t.1) := by
  intro t
  have hfaithful : Faithful t := .pursue ts
  refine ⟨Recorded.scene_pursue ts _, hfaithful.held e, hfaithful.ended,
    independent_iff_apart hfaithful.distinct, fun hindependent => ?_⟩
  -- what the emitter holds is what its subscriptions would have it hold
  have hcallbacks : (t.1.contents e).callbacks = (live e t.2).map Subscription.callback := by
    rw [hfaithful.held]
    exact hindependent t.2 (List.prefix_refl _)
  refine ⟨?_, fun depth name args E hname he => ?_⟩
  · rw [Emitter.size, hcallbacks, List.length_map]
  · have hE : E.callbacks = (live e t.2).map Subscription.callback := by
      rw [← hcallbacks, Scene.contents_eq he]
      rfl
    rw [Scene.carryOut_emit hname he, hE]
    exact congrFun List.forM_map t.1

/-- After every run in a scene in which no callback is subscribed twice to an emitter, the
subscriptions of the emitter are independent. -/
theorem independent_of_callbacks (ts : List (Nat × Scene.Task ν)) (e : Nat)
    (hcallbacks : ∀ x ∈ made (Recorded.pursue ts (.empty, [])).2,
      ∀ y ∈ made (Recorded.pursue ts (.empty, [])).2,
        x.emitter = e → y.emitter = e → x.callback = y.callback → x = y) :
    Independent e (Recorded.pursue ts (.empty, [])).2 := by
  have hfaithful : Faithful (Recorded.pursue ts ((.empty, []) : Recorded ν)) := .pursue ts
  exact (independent_iff_apart hfaithful.distinct).mpr
    (apart_of_callbacks hfaithful.distinct hfaithful.ended hcallbacks)

/-- A callback is subscribed, the emitter is cleared, the callback is subscribed again, and the
first subscription is ended. -/
def staleHandle : List (Deed Nat) :=
  [.makeEmitter "e", .makeCallback "f" [], .subscribe "e" "f" "a", .clear "e",
    .subscribe "e" "f" "b", .dispose "a"]

/-- A callback is subscribed before and behind another one, and the last subscription is ended. -/
def repeatedCallback : List (Deed Nat) :=
  [.makeEmitter "e", .makeCallback "f" [], .makeCallback "g" [], .subscribe "e" "f" "a",
    .subscribe "e" "g" "b", .subscribe "e" "f" "c", .dispose "c"]

/-- In the first run the emitter loses the live subscription, and in the second one the order of the
live subscriptions. -/
theorem not_independent_staleHandle :
    let t := Recorded.perform staleHandle
    let t' := Recorded.perform repeatedCallback
    (t.1.contents 0).callbacks = [] ∧ live 0 t.2 = [⟨0, 2, 0⟩] ∧ ¬ Independent 0 t.2 ∧
      (t'.1.contents 0).callbacks = [1, 0] ∧ live 0 t'.2 = [⟨0, 1, 0⟩, ⟨0, 2, 1⟩] ∧
      ¬ Independent 0 t'.2 := by
  refine ⟨by decide +kernel, by decide +kernel, fun hindependent => ?_, by decide +kernel,
    by decide +kernel, fun hindependent => ?_⟩
  · exact absurd (hindependent _ (List.prefix_refl _)) (by decide +kernel)
  · exact absurd (hindependent _ (List.prefix_refl _)) (by decide +kernel)

end Dialects.Events

import Dialects.Proofs.Events.Record

/-!
# Groups of disposables

A group that is disposed counts as disposed and gives up its items before it disposes them one after
the other. Whoever disposes it again meanwhile finds it empty, and what is added to it meanwhile is
disposed at once. But if the disposal of an item fails, the items behind it are not reached any
more: they are in no group, and disposing the group again does nothing (`disposesAll_iff`).

## Main definitions

* `Scene.Disposed`: a disposable or group has been disposed;
* `Scene.Tidy`: groups that have been disposed are empty, as in every scene of a run;
* `Scene.leftOver`: the items that are not reached when a group is disposed;
* `ran`: the disposables whose actions have been run.

## Main results

* `Scene.disposed_dispose`: what is asked to be disposed is disposed, whether or not this fails;
* `Once.step`: an action runs only when its disposable has not been disposed before;
* `disposesAll_iff`: which items of a group are disposed with it.
-/

namespace Dialects.Events

open Dialects.Action

variable {ν : Type} {n g i depth : Nat} {items : List Nat} {disposed : Bool} {h : List Event}

/-! ## What has been disposed -/

/-- Whether a disposable or a group has been disposed; an emitter cannot be. -/
def Object.disposed? : Object ν → Option Bool
  | .emitter _ => none
  | .group _ disposed => some disposed
  | .disposable _ disposed => some disposed

/-- A group that has been disposed is empty. -/
def Object.IsTidy : Object ν → Prop
  | .group items true => items = []
  | _ => True

namespace Scene

variable {s s' : Scene ν}

/-- Whether the disposable or group that has a number has been disposed, if there is one. -/
def disposed? (s : Scene ν) (n : Nat) : Option Bool := s.objects[n]?.bind Object.disposed?

/-- There is a disposable or group that has this number. -/
def IsDisposable (n : Nat) (s : Scene ν) : Prop := s.disposed? n ≠ none

/-- The disposable or group that has this number has been disposed. -/
def Disposed (n : Nat) (s : Scene ν) : Prop := s.disposed? n = some true

instance : Decidable (IsDisposable n s) := inferInstanceAs (Decidable (_ ≠ _))

instance : Decidable (Disposed n s) := inferInstanceAs (Decidable (_ = _))

/-- An object has been disposed if it says so. -/
theorem disposed?_eq {o : Object ν} (hn : s.objects[n]? = some o) :
    s.disposed? n = o.disposed? := by
  rw [disposed?, hn]
  rfl

/-- Replacing an object tells whether that one has been disposed, and nothing of the others. -/
theorem disposed?_put {o₀ : Object ν} (hn : s.objects[n]? = some o₀) (o : Object ν) (m : Nat) :
    (s.put n o).disposed? m = if n = m then o.disposed? else s.disposed? m := by
  rw [disposed?, getElem?_put hn]
  split <;> rfl

theorem disposed_put {o₀ o : Object ν} (hn : s.objects[n]? = some o₀)
    (ho : o.disposed? = some true) : Disposed n (s.put n o) := by
  rw [Disposed, disposed?_put hn, if_pos rfl, ho]

/-- Every disposable and group is still there, and has been disposed if it had been. -/
def Later (s s' : Scene ν) : Prop :=
  ∀ n d, s.disposed? n = some d → s'.disposed? n = some d ∨ s'.disposed? n = some true

/-- Nothing is made undone where no object changes. -/
theorem Later.of_objects (hs : s'.objects = s.objects) : Later s s' := by
  intro n d hn
  rw [disposed?, hs]
  exact .inl hn

theorem Later.of_append {o : Object ν} (hs : s'.objects = s.objects ++ [o]) : Later s s' := by
  intro n d hn
  left
  rw [disposed?] at hn ⊢
  obtain ⟨o', ho', hd⟩ := Option.bind_eq_some_iff.mp hn
  rw [hs, List.getElem?_append_left (List.getElem?_eq_some_iff.mp ho').1]
  exact hn

/-- An object that is replaced stays disposed if it was. -/
theorem Later.put {o₀ o : Object ν} (hn : s.objects[n]? = some o₀)
    (ho : ∀ d, o₀.disposed? = some d → o.disposed? = some d ∨ o.disposed? = some true) :
    Later s (s.put n o) := by
  intro m d hm
  rw [disposed?_put hn]
  split
  · rename_i heq
    rw [← heq, disposed?_eq hn] at hm
    exact ho d hm
  · exact .inl hm

theorem Later.trans {s'' : Scene ν} (h : Later s s') (h' : Later s' s'') : Later s s'' := by
  intro n d hn
  rcases h n d hn with hn | hn
  · exact h' n d hn
  · exact .inr ((h' n true hn).elim id id)

theorem Disposed.later (hn : Disposed n s) (h : Later s s') : Disposed n s' :=
  (h n true hn).elim id id

theorem IsDisposable.later (hn : IsDisposable n s) (h : Later s s') : IsDisposable n s' := by
  obtain ⟨d, hd⟩ := Option.ne_none_iff_exists'.mp hn
  rcases h n d hd with hd | hd <;> exact Option.ne_none_iff_exists'.mpr ⟨_, hd⟩

theorem later_step {t t' : Recorded ν} (hstep : Step t t') : Later t.1 t'.1 := by
  -- an object is replaced by one of its kind, which is disposed if the object was
  have hput {s : Scene ν} {n : Nat} {o₀ o : Object ν} {d : Bool} (hn : s.objects[n]? = some o₀)
      (ho₀ : o₀.disposed? = some d) (ho : o.disposed? = some d ∨ o.disposed? = some true) :
      Later s (s.put n o) :=
    .put hn fun d' hd' => Option.some.inj (ho₀.symm.trans hd') ▸ ho
  cases hstep with
  | aside hs => exact .of_objects hs
  | made hfresh hs => exact .of_append hs
  | @subscribed s s' h e c E he hs =>
    exact (Later.put he nofun).trans (.of_append (s := s.put e (.emitter (E.subscribe c))) hs)
  | cleared he => exact .put he nofun
  | closed hg => exact hput hg rfl (.inr rfl)
  | regrouped hg hitems => exact hput hg rfl (.inl rfl)
  | disposed hn => exact hput hn rfl (.inr rfl)
  | ran hn => exact hput hn rfl (.inr rfl)
  | @unsubscribed s h n e c E hn he =>
    exact (hput hn rfl (.inr rfl)).trans (.put ((emitter_put_disposable_iff hn).mpr he) nofun)

theorem later_keep {s : Scene ν} (t t' : Recorded ν) (hstep : Step t t') (ht : Later s t.1) :
    Later s t'.1 :=
  ht.trans (later_step hstep)

/-- No task undoes a disposal, be it broken off or not. -/
theorem later_carryOut (depth : Nat) (t : Task ν) (s : Scene ν) :
    Later s (carryOut depth t s).2 :=
  preserves_carryOut later_keep depth t s (.of_objects rfl)

/-- Disposes items one after the other. -/
def disposeAll (depth : Nat) (items : List Nat) : Action (Scene ν) Unit :=
  items.forM fun i => carryOut depth (.dispose i)

/-- The items are disposed from the first one on. -/
theorem disposeAll_cons (depth i : Nat) (items : List Nat) (s : Scene ν) :
    disposeAll depth (i :: items) s =
      (carryOut depth (.dispose i) >>= fun _ => disposeAll depth items) s := rfl

theorem later_disposeAll (depth : Nat) (items : List Nat) (s : Scene ν) :
    Later s (disposeAll depth items s).2 :=
  Preserves.forM (Q := Later s) (fun _ _ s' hs' => hs'.trans (later_carryOut depth _ s')) s
    (.of_objects rfl)

/-- Taking a callback back undoes no disposal. -/
theorem later_unsubscribe (e c : Nat) (s : Scene ν) : Later s (unsubscribe e c s).2 := by
  rcases unsubscribe_cases e c s with ⟨E, he, hr⟩ | ⟨f, hr⟩ <;> rw [hr]
  · exact .put he nofun
  · exact .of_objects rfl

/-! ## Disposing -/

/-- What is asked to be disposed counts as disposed before anything else is done for it. -/
theorem disposed_dispose (hn : IsDisposable n s) (depth : Nat) :
    Disposed n (carryOut (depth + 1) (.dispose n) s).2 := by
  obtain ⟨d, hd⟩ := Option.ne_none_iff_exists'.mp hn
  obtain ⟨o, ho, hd⟩ := Option.bind_eq_some_iff.mp hd
  rw [carryOut, bind_of_ok (object_apply ho)]
  -- The object is replaced first, and whatever runs after that keeps it disposed.
  match o with
  | .emitter _ => cases hd
  | .group items false => exact (disposed_put ho rfl).later (later_disposeAll depth items _)
  | .disposable none false => exact disposed_put ho rfl
  | .disposable (some (.run r)) false =>
    exact (disposed_put ho rfl).later (later_carryOut depth _ _)
  | .disposable (some (.unsubscribe e c)) false =>
    exact (disposed_put ho rfl).later (later_unsubscribe e c _)
  | .group _ true => exact disposed?_eq ho
  | .disposable _ true => exact disposed?_eq ho

/-- The items that are not reached when these are disposed one after the other: those behind the
first one whose disposal fails. -/
def unreached (depth : Nat) : List Nat → Scene ν → List Nat
  | [], _ => []
  | i :: items, s =>
    match carryOut depth (.dispose i) s with
    | (.ok _, s') => unreached depth items s'
    | (.error _, _) => items

/-- The items of a group that are not reached when it is disposed. -/
def leftOver (depth g : Nat) (s : Scene ν) : List Nat :=
  match s.objects[g]? with
  | some (.group items false) => unreached depth items (s.put g (.group [] true))
  | _ => []

/-- The items that are reached have been disposed in the end. -/
theorem exists_reached (hitems : ∀ i ∈ items, IsDisposable i s) :
    ∃ reached, items = reached ++ unreached (depth + 1) items s ∧
      ∀ i ∈ reached, Disposed i (disposeAll (depth + 1) items s).2 := by
  induction items generalizing s with
  | nil => exact ⟨[], rfl, nofun⟩
  | cons i items ih =>
    -- The first item is disposed in any case; what differs is whether the others have their turn.
    obtain ⟨hi, hrest⟩ := List.forall_mem_cons.mp hitems
    have hdisposed := disposed_dispose hi depth
    have hlater := later_carryOut (depth + 1) (.dispose i) s
    rw [disposeAll_cons, Action.bind_apply, unreached]
    rcases hr : carryOut (depth + 1) (.dispose i) s with ⟨f | _, s₁⟩ <;> rw [hr] at hdisposed hlater
    · exact ⟨[i], rfl, fun j hj => List.mem_singleton.mp hj ▸ hdisposed⟩
    · obtain ⟨reached, heq, hreached⟩ := ih fun j hj => (hrest j hj).later hlater
      refine ⟨i :: reached, congrArg (i :: ·) heq, List.forall_mem_cons.mpr ⟨?_, hreached⟩⟩
      exact hdisposed.later (later_disposeAll (depth + 1) items s₁)

/-- Disposing a group empties and closes it, and then disposes its items. -/
theorem dispose_group (hg : s.objects[g]? = some (.group items false)) (depth : Nat) :
    carryOut (depth + 1) (.dispose g) s =
      disposeAll depth items (s.put g (.group [] true)) := by
  rw [carryOut, bind_of_ok (object_apply hg)]
  rfl

/-- A group that has been disposed is left alone. -/
theorem dispose_disposed (hg : s.objects[g]? = some (.group items true)) (depth : Nat) :
    carryOut (depth + 1) (.dispose g) s = (.ok (), s) := by
  rw [carryOut, bind_of_ok (object_apply hg)]
  rfl

/-- Items are left over only where a disposal fails. -/
theorem unreached_eq_nil (hok : (disposeAll depth items s).1 = .ok ()) :
    unreached depth items s = [] := by
  -- an item behind the first one is left over only if the first one fails
  induction items generalizing s with
  | nil => rfl
  | cons i items ih =>
    rw [disposeAll_cons, Action.bind_apply] at hok
    rw [unreached]
    rcases hr : carryOut depth (.dispose i) s with ⟨f | _, s₁⟩ <;> rw [hr] at hok
    · cases hok
    · exact ih hok

/-! ## Groups that have been disposed -/

/-- Every group that has been disposed is empty. -/
def Tidy (s : Scene ν) : Prop := ∀ o ∈ s.objects, o.IsTidy

/-- A tidy scene stays so if the object that is put in is tidy. -/
theorem Tidy.put {o : Object ν} (hs : Tidy s) (ho : o.IsTidy) : Tidy (s.put n o) :=
  fun o' ho' => (List.mem_or_eq_of_mem_set ho').elim (hs o') fun heq => heq ▸ ho

/-- A tidy scene stays so with one more tidy object. -/
theorem Tidy.of_append {o : Object ν} (hs : Tidy s) (hobjects : s'.objects = s.objects ++ [o])
    (ho : o.IsTidy) : Tidy s' := by
  intro o' ho'
  rw [hobjects] at ho'
  exact (List.mem_append.mp ho').elim (hs o') fun hmem => List.mem_singleton.mp hmem ▸ ho

/-- Each step leaves every group that has been disposed empty. -/
theorem tidy_step {t t' : Recorded ν} (hstep : Step t t') (ht : Tidy t.1) : Tidy t'.1 := by
  cases hstep with
  | aside hs => exact fun o ho => ht o (hs ▸ ho)
  | @made s s' h o hfresh hs =>
    refine ht.of_append hs ?_
    match o with
    | .group items true => exact hfresh.1
    | .group items false | .emitter _ | .disposable _ _ => trivial
  | @subscribed s s' h e c E he hs =>
    have hput : Tidy (s.put e (.emitter (E.subscribe c))) := ht.put trivial
    exact hput.of_append hs trivial
  | cleared he => exact ht.put trivial
  | closed hg => exact ht.put rfl
  | @regrouped s h g items items' disposed hg hitems =>
    refine ht.put ?_
    cases disposed with
    | false => trivial
    | true =>
      -- nothing can be taken out of an empty group
      have hempty : items = [] := ht _ (List.mem_of_getElem? hg)
      exact List.subset_nil.mp (hempty ▸ hitems rfl)
  | disposed hn => exact ht.put trivial
  | ran hn => exact ht.put trivial
  | @unsubscribed s h n e c E hn he =>
    have hput : Tidy (s.put n (.disposable none true)) := ht.put trivial
    exact hput.put trivial

/-- A group that has been disposed stays so, and gets no items any more. -/
theorem closed_step {t t' : Recorded ν} (hstep : Step t t')
    (ht : t.1.objects[g]? = some (.group [] true)) : t'.1.objects[g]? = some (.group [] true) := by
  -- a disposed group is replaced by itself if at all
  have hput {s : Scene ν} {n : Nat} {o₀ o : Object ν} (hg : s.objects[g]? = some (.group [] true))
      (hn : s.objects[n]? = some o₀) (ho : o₀ = .group [] true → o = .group [] true) :
      (s.put n o).objects[g]? = some (.group [] true) := by
    rw [getElem?_put hn]
    split
    · rename_i heq
      rw [← heq, hn] at hg
      exact congrArg some (ho (Option.some.inj hg))
    · exact hg
  have happend {s s' : Scene ν} {o : Object ν} (hg : s.objects[g]? = some (.group [] true))
      (hs : s'.objects = s.objects ++ [o]) : s'.objects[g]? = some (.group [] true) := by
    rw [hs, List.getElem?_append_left (List.getElem?_eq_some_iff.mp hg).1]
    exact hg
  cases hstep with
  | aside hs => exact hs ▸ ht
  | made hfresh hs => exact happend ht hs
  | @subscribed s s' h e c E he hs =>
    exact happend (s := s.put e (.emitter (E.subscribe c))) (hput ht he nofun) hs
  | cleared he => exact hput ht he nofun
  | closed hg => exact hput ht hg nofun
  | regrouped hg hitems =>
    -- the items of a disposed group are some of none
    refine hput ht hg ?_
    rintro ⟨⟩
    rw [List.subset_nil.mp (hitems rfl)]
  | disposed hn => exact hput ht hn nofun
  | ran hn => exact hput ht hn nofun
  | @unsubscribed s h n e c E hn he =>
    -- the emitter that is changed is not the disposable that has been
    have hn' : (s.put n (.disposable none true)).objects[g]? = some (.group [] true) :=
      hput ht hn nofun
    exact hput hn' ((emitter_put_disposable_iff hn).mpr he) nofun

/-- A group that has been disposed stays as it is while items are disposed. -/
theorem closed_disposeAll (depth : Nat) (items : List Nat)
    (hg : s.objects[g]? = some (.group [] true)) :
    (disposeAll depth items s).2.objects[g]? = some (.group [] true) :=
  Preserves.forM (Q := fun s => s.objects[g]? = some (.group [] true))
    (fun _ _ => preserves_carryOut (fun _ _ => closed_step) _ _) s hg

/-- Disposing a group leaves it empty and disposed, however its items end. -/
theorem closed_dispose (hs : Tidy s) (hg : s.objects[g]? = some (.group items disposed))
    (depth : Nat) :
    (carryOut (depth + 2) (.dispose g) s).2.objects[g]? = some (.group [] true) := by
  cases disposed with
  | true =>
    obtain rfl : items = [] := hs _ (List.mem_of_getElem? hg)
    rwa [dispose_disposed hg]
  | false =>
    rw [dispose_group hg]
    -- the group is emptied before its items are disposed, and no step puts anything into it again
    refine closed_disposeAll (depth + 1) items ?_
    rw [getElem?_put hg, if_pos rfl]

/-- The items of a group that is disposed are disposed up to those that are left over. -/
theorem exists_reached_dispose (hs : Tidy s)
    (hg : s.objects[g]? = some (.group items disposed)) (hitems : ∀ i ∈ items, IsDisposable i s)
    (depth : Nat) :
    ∃ reached, items = reached ++ leftOver (depth + 1) g s ∧
      ∀ i ∈ reached, Disposed i (carryOut (depth + 2) (.dispose g) s).2 := by
  cases disposed with
  | true =>
    obtain rfl : items = [] := hs _ (List.mem_of_getElem? hg)
    rw [leftOver, hg]
    exact ⟨[], rfl, nofun⟩
  | false =>
    have hlater : Later s (s.put g (.group [] true)) := .put hg fun _ _ => .inr rfl
    rw [dispose_group hg, leftOver, hg]
    -- that the group is marked before its items are disposed is one of the changes that keep them
    exact exists_reached fun i hi => (hitems i hi).later hlater

/-- Nothing is left over if a group is disposed without an error. -/
theorem leftOver_eq_nil (hg : s.objects[g]? = some (.group items disposed))
    (hok : (carryOut (depth + 1) (.dispose g) s).1 = .ok ()) : leftOver depth g s = [] := by
  cases disposed with
  | true => rw [leftOver, hg]
  | false =>
    rw [dispose_group hg] at hok
    rw [leftOver, hg]
    exact unreached_eq_nil hok

/-- What is added to a group that has been disposed is disposed at once. -/
theorem disposed_add {name item : String} (hg : s.objects[g]? = some (.group items true))
    (hname : s.names.lookup name = some g) (hitem : s.names.lookup item = some i)
    (hi : IsDisposable i s) (depth : Nat) :
    Disposed i (carryOut (depth + 2) (.deed (.add name item)) s).2 := by
  have hadd : carryOut (depth + 2) (.deed (.add name item)) s =
      carryOut (depth + 1) (.dispose i) s :=
    (bind_of_ok (number_apply hname)).trans
      ((bind_of_ok (number_apply hitem)).trans (bind_of_ok (group_apply hg)))
  rw [hadd]
  exact disposed_dispose hi depth

end Scene

open Scene

/-! ## Actions run once -/

/-- The disposable whose action starts to run in an event. -/
def Event.ran? : Event → Option Nat
  | .ran n => some n
  | _ => none

/-- The disposables whose actions have started to run, once for each time. -/
def ran (h : List Event) : List Nat := h.filterMap Event.ran?

/-- The actions that have run are those of different disposables, which have been disposed. -/
structure Once (t : Recorded ν) : Prop where
  distinct : (ran t.2).Nodup
  done : ∀ n ∈ ran t.2, Disposed n t.1

/-- What starts no action keeps the actions of different disposables apart. -/
theorem Once.of_ran_eq {t t' : Recorded ν} (ht : Once t) (hlater : Later t.1 t'.1)
    (hran : ran t'.2 = ran t.2) : Once t' :=
  ⟨hran ▸ ht.distinct, fun n hn => (ht.done n (hran ▸ hn)).later hlater⟩

/-- The action of a disposable that has not been disposed has not run. -/
theorem Once.concat {t t' : Recorded ν} (ht : Once t) (hlater : Later t.1 t'.1)
    (hran : ran t'.2 = ran t.2 ++ [n]) (hn : t.1.disposed? n = some false)
    (hn' : Disposed n t'.1) : Once t' := by
  -- An action that has run is that of a disposable that has been disposed, which this one is not.
  have hnew : n ∉ ran t.2 := fun hmem => by
    have hdone := ht.done n hmem
    rw [Disposed, hn] at hdone
    cases hdone
  refine ⟨?_, fun m hm => ?_⟩
  · rw [hran]
    refine List.nodup_append.mpr ⟨ht.distinct, List.pairwise_singleton _ n, fun m hm k hk => ?_⟩
    rw [List.mem_singleton.mp hk]
    exact ne_of_mem_of_not_mem hm hnew
  · rw [hran] at hm
    rcases List.mem_append.mp hm with hm | hm
    · exact (ht.done m hm).later hlater
    · exact List.mem_singleton.mp hm ▸ hn'

/-- No step starts the action of a disposable a second time. -/
theorem Once.step {t t' : Recorded ν} (hstep : Step t t') (ht : Once t) : Once t' := by
  have hlater := later_step hstep
  cases hstep with
  -- only two kinds of steps run an action, each that of an object which has not been disposed
  | aside hs => exact ht.of_ran_eq hlater rfl
  | made hfresh hs => exact ht.of_ran_eq hlater rfl
  | subscribed he hs => exact ht.of_ran_eq hlater (by simp [ran, Event.ran?])
  | cleared he => exact ht.of_ran_eq hlater (by simp [ran, Event.ran?])
  | closed hg => exact ht.of_ran_eq hlater rfl
  | regrouped hg hitems => exact ht.of_ran_eq hlater rfl
  | disposed hn => exact ht.of_ran_eq hlater rfl
  | ran hn =>
    refine ht.concat hlater (by simp [Dialects.Events.ran, Event.ran?]) (disposed?_eq hn) ?_
    exact disposed_put hn rfl
  | unsubscribed hn he =>
    refine ht.concat hlater (by simp [Dialects.Events.ran, Event.ran?]) (disposed?_eq hn) ?_
    exact (disposed_put hn rfl).later (.put ((emitter_put_disposable_iff hn).mpr he) nofun)

/-! ## Disposing a group -/

/-- Two items are added to a group, and the action of the first one fails. -/
def failingItem : List (Deed Nat) :=
  [.makeGroup "g", .makeDisposable "a" (some [.fail "boom"]), .makeDisposable "b" none,
    .add "g" "a", .add "g" "b"]

/-- When a group is disposed, at any time of a run, whether or not its items, their actions and
whoever is called by them touch groups or fail, then its items have been disposed with it up to
those that are left over; so all of them have been just when these have, as someone else has
disposed them; and if disposing the group does not fail, nothing is left over. Later, at any time,
what has been disposed still is, and an item that is added to the group is disposed, whether or not
this fails. And in the whole run no action runs twice. -/
theorem disposesAll_iff {t : Recorded ν} (ht : Reached t)
    (hg : t.1.objects[g]? = some (.group items disposed)) (hitems : ∀ i ∈ items, IsDisposable i t.1)
    (depth : Nat) :
    let r := Recorded.carryOut (depth + 2) (.dispose g) t
    (r.1, r.2.1) = carryOut (depth + 2) (.dispose g) t.1 ∧
      (∃ reached, items = reached ++ leftOver (depth + 1) g t.1 ∧
        ∀ i ∈ reached, Disposed i r.2.1) ∧
      ((∀ i ∈ items, Disposed i r.2.1) ↔ ∀ i ∈ leftOver (depth + 1) g t.1, Disposed i r.2.1) ∧
      (r.1 = .ok () → leftOver (depth + 1) g t.1 = []) ∧
      ∀ t', Steps r.2 t' →
        (∀ i, Disposed i r.2.1 → Disposed i t'.1) ∧
        (∀ name item i depth', t'.1.names.lookup name = some g →
          t'.1.names.lookup item = some i → IsDisposable i t'.1 →
            Disposed i (carryOut (depth' + 2) (.deed (.add name item)) t'.1).2) ∧
        (ran t'.2).Nodup := by
  intro r
  have hr : (r.1, r.2.1) = carryOut (depth + 2) (.dispose g) t.1 :=
    Recorded.erases_carryOut (depth + 2) (.dispose g) t
  have hresult : r.1 = (carryOut (depth + 2) (.dispose g) t.1).1 := congrArg Prod.fst hr
  have hscene : r.2.1 = (carryOut (depth + 2) (.dispose g) t.1).2 := congrArg Prod.snd hr
  have htidy : Tidy t.1 := ht.keep (fun _ _ => tidy_step) nofun
  -- the group has been marked as disposed, and stays so whatever happens later
  have hclosed : r.2.1.objects[g]? = some (.group [] true) := by
    rw [hscene]
    exact closed_dispose htidy hg depth
  have hreached := exists_reached_dispose htidy hg hitems depth
  rw [← hscene] at hreached
  refine ⟨hr, hreached, ?_, fun hok => leftOver_eq_nil hg (hresult ▸ hok),
    fun t' hsteps => ⟨?_, ?_, ?_⟩⟩
  · obtain ⟨reached, heq, hdisposed⟩ := hreached
    constructor
    · exact fun hall i hi => hall i (heq ▸ List.mem_append_right reached hi)
    · exact fun hleft i hi => (List.mem_append.mp (heq ▸ hi)).elim (hdisposed i) (hleft i)
  · exact fun i hi => hi.later (hsteps.keep later_keep (.of_objects rfl))
  · intro name item i depth' hname hitem hi
    have hclosed' : t'.1.objects[g]? = some (.group [] true) :=
      hsteps.keep (fun _ _ => closed_step) hclosed
    exact disposed_add hclosed' hname hitem hi depth'
  · -- the whole run from the beginning is needed, since an action may have run before
    have honce : Once ((.empty, []) : Recorded ν) := ⟨List.nodup_nil, nofun⟩
    have hfirst : Steps t r.2 := Recorded.steps_carryOut (depth + 2) (.dispose g) t t .refl
    have hwhole : Steps (.empty, []) t' := (ht.trans hfirst).trans hsteps
    exact (hwhole.keep (fun _ _ => Once.step) honce).distinct

/-- The second item of this run is left over: all depends on whether someone else disposes it. -/
theorem disposesAll_failingItem :
    let t := Recorded.perform failingItem
    let r := Recorded.carryOut maxDepth (.dispose 0) t
    Reached t ∧ t.1.objects[0]? = some (.group [1, 2] false) ∧
      (∀ i ∈ [1, 2], IsDisposable i t.1) ∧ leftOver 1999 0 t.1 = [2] ∧
      ((∀ i ∈ [1, 2], Disposed i r.2.1) ↔ ∀ i ∈ [2], Disposed i r.2.1) := by
  have ht : Reached (Recorded.perform failingItem) := .perform failingItem
  have hitems : ∀ i ∈ [1, 2], IsDisposable i (Recorded.perform failingItem).1 := by decide +kernel
  exact ⟨ht, rfl, hitems, rfl, (disposesAll_iff ht rfl hitems 1998).2.2.1⟩

/-- The group of the run is disposed, and the second item is not. -/
theorem not_disposesAll_failingItem :
    let t := Recorded.perform failingItem
    let r := carryOut maxDepth (.dispose 0) t.1
    t.1.objects[0]? = some (.group [1, 2] false) ∧ r.1 = .error (.interrupted "boom") ∧
      Disposed 0 r.2 ∧ Disposed 1 r.2 ∧ ¬ Disposed 2 r.2 :=
  ⟨rfl, rfl, by decide +kernel, by decide +kernel, by decide +kernel⟩

end Dialects.Events

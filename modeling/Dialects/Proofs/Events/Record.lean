import Mathlib.Logic.Relation
import Dialects.Events.Scene
import Dialects.Proofs.Tracing

/-!
# What happens in a scene

A run in a scene is put on record: when a callback is subscribed to an emitter, when it is taken
back by the disposable of the subscription, when an emitter is cleared, and when the action of a
disposable starts to run. Callbacks and actions may touch any object, so that tasks are nested in
tasks and broken off by errors; whatever happens is nonetheless a sequence of a few kinds of steps
(`Step`), and what each step keeps every run keeps (`Steps.keep`).

## Main definitions

* `Event`, `Recorded.carryOut`: the events, and a task that is carried out on record;
* `Step`: what can happen at a time;
* `Scene.pursue`, `Recorded.pursue`: carrying out tasks one after the other, failed ones included;
* `Reached`: what comes up in a run that starts without objects.

## Main results

* `Recorded.erases_carryOut`: the record makes no difference;
* `Recorded.steps_carryOut`, `Recorded.steps_pursue`: a task, and a run, is a sequence of steps.
-/

namespace Dialects.Events

open Dialects.Action

variable {ν : Type}

/-- A subscription of a callback to an emitter. -/
structure Subscription where
  /-- The number of the emitter. -/
  emitter : Nat
  /-- The number of the disposable that ends the subscription. -/
  handle : Nat
  /-- The number of the callback. -/
  callback : Nat
  deriving DecidableEq, Repr

/-- What happens in a scene. -/
inductive Event where
  /-- A subscription is made. -/
  | subscribed (x : Subscription)
  /-- The disposable of a subscription takes the callback back. -/
  | unsubscribed (x : Subscription)
  /-- An emitter is cleared. -/
  | cleared (emitter : Nat)
  /-- The action of a disposable starts to run. -/
  | ran (disposable : Nat)
  deriving DecidableEq, Repr

/-- A scene and what has happened in it. -/
abbrev Recorded (ν : Type) := Traced (Scene ν) Event

namespace Recorded

open Scene Traced

/-- Carries out a task on record. -/
def carryOut : (depth : Nat) → Scene.Task ν → Action (Recorded ν) Unit
  | 0, _ => throw .nestedTooDeep
  | depth + 1, .call r args => do
    quietly (.change fun s => { s with log := s.log ++ [(r.name, args)] })
    r.deeds.forM fun d => carryOut depth (.deed d)
  | depth + 1, .dispose n => do
    match ← quietly (object n) with
    | .emitter _ => throw wrongSort
    | .group items false =>
      quietly (.change (put n (.group [] true)))
      items.forM fun i => carryOut depth (.dispose i)
    | .disposable action false =>
      quietly (.change (put n (.disposable none true)))
      match action with
      | none => pure ()
      | some (.run r) =>
        note (.ran n)
        carryOut depth (.call r [])
      | some (.unsubscribe e c) =>
        note (.ran n)
        quietly (unsubscribe e c)
        note (.unsubscribed ⟨e, n, c⟩)
    | .group _ true | .disposable _ true => pure ()
  | depth + 1, .deed d => do
    match d with
    | .subscribe e c subscription =>
      let e ← quietly (number Scene.names e)
      let c ← quietly (number Scene.callbackNames c)
      let n ← quietly (.ask fun s => s.objects.length)
      quietly (subscribe e c subscription)
      note (.subscribed ⟨e, n, c⟩)
    | .emit e args =>
      let n ← quietly (number Scene.names e)
      let e' ← quietly (emitter n)
      e'.callbacks.forM fun c => do
        match (← quietly (.ask Scene.callbacks))[c]? with
        | some r => carryOut depth (.call r args)
        | none => pure ()
    | .clear e =>
      let e ← quietly (number Scene.names e)
      quietly (clear e)
      note (.cleared e)
    | .add g item =>
      let g ← quietly (number Scene.names g)
      let item ← quietly (number Scene.names item)
      let (items, disposed) ← quietly (group g)
      if disposed then carryOut depth (.dispose item)
      else quietly (.change (put g (.group (items ++ [item]) false)))
    | .remove g item =>
      let g ← quietly (number Scene.names g)
      let item ← quietly (number Scene.names item)
      let (items, disposed) ← quietly (group g)
      quietly (.change (put g (.group (items.erase item) disposed)))
    | .dispose name => carryOut depth (.dispose (← quietly (number Scene.names name)))
    | d => quietly (Scene.carryOut (depth + 1) (.deed d))

/-- The record makes no difference to what is done. -/
theorem erases_carryOut (depth : Nat) (t : Scene.Task ν) :
    Erases (carryOut depth t) (Scene.carryOut depth t) := by
  -- the induction is on the depth, which every call and every disposal uses up
  induction depth generalizing t with
  | zero => exact erases_throw _
  | succ depth ih =>
    cases t with
    | call r args => exact (erases_quietly _).bind fun _ => Erases.forM (fun d => ih _) _
    | dispose n =>
      refine (erases_quietly _).bind fun o => ?_
      match o with
      | .emitter _ => exact erases_throw _
      | .group items false => exact (erases_quietly _).bind fun _ => Erases.forM (fun i => ih _) _
      | .disposable action false =>
        refine (erases_quietly _).bind fun _ => ?_
        match action with
        | none => exact erases_pure _
        | some (.run r) => exact (ih _).note
        | some (.unsubscribe e c) => exact (erases_quietly _).noted.note
      | .group _ true => exact erases_pure _
      | .disposable _ true => exact erases_pure _
    | deed d =>
      cases d with
      | subscribe e c subscription =>
        refine (erases_quietly _).bind fun e => (erases_quietly _).bind fun c => ?_
        exact fun t => (erases_quietly (Scene.subscribe e c subscription)).noted t
      | emit e args =>
        -- a callback is looked up when its turn comes, and may be gone by then
        refine (erases_quietly _).bind fun n => (erases_quietly _).bind fun e' => ?_
        refine Erases.forM (fun c => (erases_quietly _).bind fun callbacks => ?_) _
        cases callbacks[c]? with
        | some r => exact ih _
        | none => exact erases_pure _
      | clear e => exact (erases_quietly _).bind fun e => (erases_quietly _).noted
      | add g item =>
        refine (erases_quietly _).bind fun g => (erases_quietly _).bind fun i => ?_
        refine (erases_quietly _).bind fun contents => ?_
        match contents with
        | (items, true) => exact ih _
        | (items, false) => exact erases_quietly _
      | remove g item =>
        refine (erases_quietly _).bind fun g => (erases_quietly _).bind fun i => ?_
        exact (erases_quietly _).bind fun contents => erases_quietly _
      | dispose name => exact (erases_quietly _).bind fun n => ih _
      | _ => exact erases_quietly _

end Recorded

/-! ## What is read -/

namespace Scene

/-- Asking for the number of a name gives it, or fails, and changes nothing. -/
theorem reads_number (table : Scene ν → List (String × Nat)) (name : String) :
    Reads (fun s n => (table s).lookup name = some n) (number table name) := by
  refine (Reads.ask table).bind fun s names hnames => ?_
  subst hnames
  cases (table s).lookup name with
  | none => exact ⟨rfl, nofun⟩
  | some n => exact ⟨rfl, fun _ hn => congrArg some (Except.ok.inj hn)⟩

/-- Asking for an object gives it, or fails, and changes nothing. -/
theorem reads_object (n : Nat) :
    Reads (fun (s : Scene ν) o => s.objects[n]? = some o) (object n) := by
  refine (Reads.ask Scene.objects).bind fun s objects hobjects => ?_
  subst hobjects
  cases s.objects[n]? with
  | none => exact ⟨rfl, nofun⟩
  | some o => exact ⟨rfl, fun _ ho => congrArg some (Except.ok.inj ho)⟩

/-- Asking for an emitter gives it, or fails, and changes nothing. -/
theorem reads_emitter (n : Nat) :
    Reads (fun (s : Scene ν) E => s.objects[n]? = some (.emitter E)) (emitter n) := by
  refine (reads_object n).bind fun s o ho => ?_
  cases o with
  | emitter E => exact ⟨rfl, fun _ hE => Except.ok.inj hE ▸ ho⟩
  | _ => exact ⟨rfl, nofun⟩

/-- Asking for a group gives it, or fails, and changes nothing. -/
theorem reads_group (n : Nat) :
    Reads (fun (s : Scene ν) (p : List Nat × Bool) => s.objects[n]? = some (.group p.1 p.2))
      (group n) := by
  refine (reads_object n).bind fun s o ho => ?_
  cases o with
  | group items disposed => exact ⟨rfl, fun _ hp => Except.ok.inj hp ▸ ho⟩
  | _ => exact ⟨rfl, nofun⟩

/-- A name that is known has its number. -/
theorem number_apply {table : Scene ν → List (String × Nat)} {name : String} {n : Nat} {s : Scene ν}
    (h : (table s).lookup name = some n) : number table name s = (.ok n, s) := by
  rw [number, Action.bind_apply, Action.ask_apply]
  simp only [h, Action.pure_apply]

/-- An object that is there is given. -/
theorem object_apply {s : Scene ν} {n : Nat} {o : Object ν} (h : s.objects[n]? = some o) :
    object n s = (.ok o, s) := by
  rw [object, Action.bind_apply, Action.ask_apply]
  simp only [h, Action.pure_apply]

/-- An emitter that is there is given. -/
theorem emitter_apply {s : Scene ν} {n : Nat} {E : Emitter Nat}
    (h : s.objects[n]? = some (.emitter E)) : emitter n s = (.ok E, s) :=
  bind_of_ok (object_apply h)

/-- A group that is there is given. -/
theorem group_apply {s : Scene ν} {n : Nat} {items : List Nat} {disposed : Bool}
    (h : s.objects[n]? = some (.group items disposed)) :
    group n s = (.ok (items, disposed), s) :=
  bind_of_ok (object_apply h)

/-- A callback is subscribed and the disposable for it is made, or nothing happens. -/
theorem subscribe_cases (e c : Nat) (subscription : String) (s : Scene ν) :
    (∃ E, s.objects[e]? = some (.emitter E) ∧ subscribe e c subscription s =
      (.ok (), (s.put e (.emitter (E.subscribe c))).make subscription
        (.disposable (some (.unsubscribe e c)) false))) ∨
    ∃ f, subscribe e c subscription s = (.error f, s) := by
  simp only [subscribe, Action.bind_apply]
  rcases (reads_emitter e).cases s with ⟨E, he, hr⟩ | ⟨f, hr⟩ <;> rw [hr]
  · exact .inl ⟨E, he, rfl⟩
  · exact .inr ⟨f, rfl⟩

/-- A callback is taken back from the emitter, or nothing happens. -/
theorem unsubscribe_cases (e c : Nat) (s : Scene ν) :
    (∃ E, s.objects[e]? = some (.emitter E) ∧
      unsubscribe e c s = (.ok (), s.put e (.emitter (E.unsubscribe c)))) ∨
    ∃ f, unsubscribe e c s = (.error f, s) := by
  simp only [unsubscribe, Action.bind_apply]
  rcases (reads_emitter e).cases s with ⟨E, he, hr⟩ | ⟨f, hr⟩ <;> rw [hr]
  · exact .inl ⟨E, he, rfl⟩
  · exact .inr ⟨f, rfl⟩

/-- The emitter is emptied, or nothing happens. -/
theorem clear_cases (e : Nat) (s : Scene ν) :
    (∃ E, s.objects[e]? = some (.emitter E) ∧ clear e s = (.ok (), s.put e (.emitter .empty))) ∨
    ∃ f, clear e s = (.error f, s) := by
  simp only [clear, Action.bind_apply]
  rcases (reads_emitter e).cases s with ⟨E, he, hr⟩ | ⟨f, hr⟩ <;> rw [hr]
  · exact .inl ⟨E, he, rfl⟩
  · exact .inr ⟨f, rfl⟩

/-- The object that is put in is found, and so is every other one. -/
theorem getElem?_put {s : Scene ν} {n m : Nat} {o₀ : Object ν} (hn : s.objects[n]? = some o₀)
    (o : Object ν) : (s.put n o).objects[m]? = if n = m then some o else s.objects[m]? := by
  rw [put, List.getElem?_set, if_pos (List.getElem?_eq_some_iff.mp hn).1]

/-- A disposable that is disposed is no emitter before and after. -/
theorem emitter_put_disposable_iff {s : Scene ν} {n e : Nat} {E : Emitter Nat}
    {action action' : Option (DisposeAction ν)} {d d' : Bool}
    (hn : s.objects[n]? = some (.disposable action d)) :
    (s.put n (.disposable action' d')).objects[e]? = some (.emitter E) ↔
      s.objects[e]? = some (.emitter E) := by
  rw [getElem?_put hn]
  split
  · rename_i heq
    rw [← heq, hn]
    exact iff_of_false nofun nofun
  · rfl

end Scene

/-! ## Steps -/

/-- An object as it is made under a name. -/
def Object.IsFresh : Object ν → Prop
  | .emitter e => e = .empty
  | .group items disposed => items = [] ∧ disposed = false
  | .disposable action disposed => (∀ e c, action ≠ some (.unsubscribe e c)) ∧ disposed = false

/-- What can happen at a time. -/
inductive Step : Recorded ν → Recorded ν → Prop where
  /-- No object is touched. -/
  | aside {s s' : Scene ν} {h : List Event} (hs : s'.objects = s.objects) : Step (s, h) (s', h)
  /-- An object is made under a name. -/
  | made {s s' : Scene ν} {h : List Event} {o : Object ν} (hfresh : o.IsFresh)
      (hs : s'.objects = s.objects ++ [o]) : Step (s, h) (s', h)
  /-- A subscription is made, and the disposable that ends it. -/
  | subscribed {s s' : Scene ν} {h : List Event} {e c : Nat} {E : Emitter Nat}
      (he : s.objects[e]? = some (.emitter E))
      (hs : s'.objects = s.objects.set e (.emitter (E.subscribe c)) ++
        [.disposable (some (.unsubscribe e c)) false]) :
      Step (s, h) (s', h ++ [.subscribed ⟨e, s.objects.length, c⟩])
  /-- An emitter is cleared. -/
  | cleared {s : Scene ν} {h : List Event} {e : Nat} {E : Emitter Nat}
      (he : s.objects[e]? = some (.emitter E)) :
      Step (s, h) (s.put e (.emitter .empty), h ++ [.cleared e])
  /-- A group counts as disposed and gives up its items. -/
  | closed {s : Scene ν} {h : List Event} {g : Nat} {items : List Nat}
      (hg : s.objects[g]? = some (.group items false)) : Step (s, h) (s.put g (.group [] true), h)
  /-- The items of a group change; a group that is disposed gets no new ones. -/
  | regrouped {s : Scene ν} {h : List Event} {g : Nat} {items items' : List Nat} {disposed : Bool}
      (hg : s.objects[g]? = some (.group items disposed))
      (hitems : disposed = true → items' ⊆ items) :
      Step (s, h) (s.put g (.group items' disposed), h)
  /-- A disposable without an action is disposed. -/
  | disposed {s : Scene ν} {h : List Event} {n : Nat}
      (hn : s.objects[n]? = some (.disposable none false)) :
      Step (s, h) (s.put n (.disposable none true), h)
  /-- A disposable is disposed, and its action starts to run. -/
  | ran {s : Scene ν} {h : List Event} {n : Nat} {action : DisposeAction ν}
      (hn : s.objects[n]? = some (.disposable (some action) false)) :
      Step (s, h) (s.put n (.disposable none true), h ++ [.ran n])
  /-- The disposable of a subscription is disposed, and takes the callback back. -/
  | unsubscribed {s : Scene ν} {h : List Event} {n e c : Nat} {E : Emitter Nat}
      (hn : s.objects[n]? = some (.disposable (some (.unsubscribe e c)) false))
      (he : s.objects[e]? = some (.emitter E)) :
      Step (s, h) ((s.put n (.disposable none true)).put e (.emitter (E.unsubscribe c)),
        h ++ [.ran n, .unsubscribed ⟨e, n, c⟩])

/-- A sequence of steps. -/
abbrev Steps : Recorded ν → Recorded ν → Prop := Relation.ReflTransGen Step

/-- What each step keeps a sequence of steps keeps. -/
theorem Steps.keep {Q : Recorded ν → Prop} (hQ : ∀ t t', Step t t' → Q t → Q t')
    {t t' : Recorded ν} (hsteps : Steps t t') (ht : Q t) : Q t' := by
  induction hsteps with
  | refl => exact ht
  | tail _ hstep ih => exact hQ _ _ hstep ih

namespace Recorded

open Scene Traced

/-- A change that is a step by itself keeps the record one of steps. -/
theorem preserves_change {t₀ : Recorded ν} {f : Scene ν → Scene ν}
    (hf : ∀ s h, Step (s, h) (f s, h)) : Preserves (Steps t₀) (quietly (.change f)) :=
  fun (s, h) ht => ht.tail (hf s h)

/-- A disposable that has been disposed takes its callback back, if the emitter is there. -/
theorem steps_unsubscribe {s : Scene ν} {h : List Event} {n e c : Nat}
    (hn : s.objects[n]? = some (.disposable (some (.unsubscribe e c)) false)) :
    Steps (s, h) ((quietly (unsubscribe e c) >>= fun _ => note (.unsubscribed ⟨e, n, c⟩))
      (s.put n (.disposable none true), h ++ [.ran n])).2 := by
  -- without the emitter nothing is taken back, and the record only says that the disposable has run
  rw [Action.bind_apply, quietly_apply]
  rcases unsubscribe_cases e c (s.put n (.disposable none true)) with ⟨E, he, hr⟩ | ⟨f, hr⟩
  · rw [emitter_put_disposable_iff hn] at he
    have hstep : Step (s, h) _ := .unsubscribed hn he
    rw [hr]
    simpa using Relation.ReflTransGen.single hstep
  · rw [hr]
    exact .single (.ran hn)

/-- A subscription is one step on record, or none. -/
theorem steps_subscribe (s : Scene ν) (h : List Event) (e c : Nat) (subscription : String) :
    Steps (s, h) ((quietly (Scene.subscribe e c subscription) >>= fun _ =>
      note (.subscribed ⟨e, s.objects.length, c⟩)) (s, h)).2 := by
  rw [Action.bind_apply, quietly_apply]
  rcases subscribe_cases e c subscription s with ⟨E, he, hr⟩ | ⟨f, hr⟩
  · rw [hr]
    exact .single (.subscribed he rfl)
  · rw [hr]

/-- Clearing an emitter is one step on record, or none. -/
theorem steps_clear (s : Scene ν) (h : List Event) (e : Nat) :
    Steps (s, h) ((quietly (Scene.clear e) >>= fun _ => note (.cleared e)) (s, h)).2 := by
  rw [Action.bind_apply, quietly_apply]
  rcases clear_cases e s with ⟨E, he, hr⟩ | ⟨f, hr⟩
  · rw [hr]
    exact .single (.cleared he)
  · rw [hr]

/-- Whatever a task leads to is a sequence of steps. -/
theorem steps_carryOut (depth : Nat) (t : Scene.Task ν) (t₀ : Recorded ν) :
    Preserves (Steps t₀) (carryOut depth t) := by
  -- Callbacks and actions are run with a smaller depth, so that they are covered by the induction.
  induction depth generalizing t with
  | zero => exact Preserves.throw _
  | succ depth ih =>
    cases t with
    | call r args =>
      refine Preserves.bind (preserves_change fun s h => .aside rfl) fun _ => ?_
      exact Preserves.forM fun d _ => ih _
    | dispose n =>
      refine Preserves.read (reads_object n).quietly fun (s, h) o ho hs => ?_
      match o with
      | .emitter _ => exact hs
      | .group items false => exact Preserves.forM (fun i _ => ih _) _ (hs.tail (.closed ho))
      | .disposable none false => exact hs.tail (.disposed ho)
      | .disposable (some (.run r)) false => exact ih _ _ (hs.tail (.ran ho))
      | .disposable (some (.unsubscribe e c)) false => exact hs.trans (steps_unsubscribe ho)
      | .group _ true => exact hs
      | .disposable _ true => exact hs
    | deed d =>
      cases d with
      | makeEmitter name => exact preserves_change fun s h => .made (o := .emitter .empty) rfl rfl
      | makeGroup name =>
        exact preserves_change fun s h => .made (o := .group [] false) ⟨rfl, rfl⟩ rfl
      | makeDisposable name action =>
        refine preserves_change fun s h =>
          .made (o := .disposable (action.map fun ds => .run ⟨name, ds⟩) false)
            ⟨fun e c => ?_, rfl⟩ rfl
        cases action <;> simp
      | makeCallback name deeds => exact preserves_change fun s h => .aside rfl
      | subscribe e c subscription =>
        refine (reads_number _ e).quietly.preserves.bind fun e => ?_
        refine (reads_number _ c).quietly.preserves.bind fun c => ?_
        exact fun (s, h) hs => hs.trans (steps_subscribe s h e c subscription)
      | emit e args =>
        refine (reads_number _ e).quietly.preserves.bind fun e => ?_
        refine (reads_emitter e).quietly.preserves.bind fun E => Preserves.forM fun c _ => ?_
        refine (Reads.ask _).quietly.preserves.bind fun callbacks => ?_
        cases callbacks[c]? with
        | some r => exact ih _
        | none => exact Preserves.pure _
      | clear e =>
        refine (reads_number _ e).quietly.preserves.bind fun e => ?_
        exact fun (s, h) hs => hs.trans (steps_clear s h e)
      | add g item =>
        refine (reads_number _ g).quietly.preserves.bind fun g => ?_
        refine (reads_number _ item).quietly.preserves.bind fun i => ?_
        refine Preserves.read (reads_group g).quietly fun (s, h) (items, disposed) hg hs => ?_
        cases disposed with
        | true => exact ih _ _ hs
        | false => exact hs.tail (.regrouped hg nofun)
      | remove g item =>
        refine (reads_number _ g).quietly.preserves.bind fun g => ?_
        refine (reads_number _ item).quietly.preserves.bind fun i => ?_
        refine Preserves.read (reads_group g).quietly fun (s, h) (items, disposed) hg hs => ?_
        exact hs.tail (.regrouped hg fun _ => List.erase_subset)
      | dispose name => exact (reads_number _ name).quietly.preserves.bind fun n => ih _
      | fail reason => exact Preserves.throw _

end Recorded

/-! ## Runs -/

/-- Carries out tasks one after the other, each with its bound on the depth. After a task that fails
it goes on with the next one. -/
def Scene.pursue (ts : List (Nat × Scene.Task ν)) (s : Scene ν) : Scene ν :=
  ts.foldl (fun s t => (Scene.carryOut t.1 t.2 s).2) s

/-- The same on record. -/
def Recorded.pursue (ts : List (Nat × Scene.Task ν)) (t : Recorded ν) : Recorded ν :=
  ts.foldl (fun t t' => (Recorded.carryOut t'.1 t'.2 t).2) t

/-- A run that does deeds in a scene that has no objects yet, on record. -/
def Recorded.perform (ds : List (Deed ν)) : Recorded ν :=
  pursue (ds.map fun d => (Scene.maxDepth, .deed d)) (.empty, [])

/-- The record makes no difference to what a task leaves. -/
theorem Recorded.scene_carryOut (depth : Nat) (t : Scene.Task ν) (s : Scene ν) (h : List Event) :
    (carryOut depth t (s, h)).2.1 = (Scene.carryOut depth t s).2 :=
  congrArg Prod.snd (erases_carryOut depth t (s, h))

/-- The record makes no difference to what a run leaves. -/
theorem Recorded.scene_pursue (ts : List (Nat × Scene.Task ν)) (t : Recorded ν) :
    (pursue ts t).1 = Scene.pursue ts t.1 := by
  induction ts generalizing t with
  | nil => rfl
  | cons t' ts ih =>
    refine (ih _).trans (congrArg (Scene.pursue ts) ?_)
    exact scene_carryOut t'.1 t'.2 t.1 t.2

/-- A run is a sequence of steps. -/
theorem Recorded.steps_pursue (ts : List (Nat × Scene.Task ν)) (t : Recorded ν) :
    Steps t (pursue ts t) := by
  induction ts generalizing t with
  | nil => exact .refl
  | cons t' ts ih => exact (steps_carryOut t'.1 t'.2 t t .refl).trans (ih _)

/-- What each step keeps in the scene a task keeps. -/
theorem Scene.preserves_carryOut {Q : Scene ν → Prop}
    (hQ : ∀ t t' : Recorded ν, Step t t' → Q t.1 → Q t'.1) (depth : Nat) (t : Scene.Task ν) :
    Preserves Q (carryOut depth t) := by
  intro s hs
  have hsteps := Recorded.steps_carryOut depth t (s, []) (s, []) .refl
  have hlast : Q (Recorded.carryOut depth t (s, [])).2.1 := hsteps.keep hQ hs
  rwa [Recorded.scene_carryOut] at hlast

/-- What comes up in a run that starts without objects, be it in the middle of a task. -/
def Reached (t : Recorded ν) : Prop := Steps (.empty, []) t

/-- What a program of deeds leaves has come up in a run. -/
theorem Reached.perform (ds : List (Deed ν)) : Reached (Recorded.perform ds) :=
  Recorded.steps_pursue _ _

end Dialects.Events

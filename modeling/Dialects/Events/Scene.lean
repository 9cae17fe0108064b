import Dialects.Action
import Dialects.Events.Emitter

/-!
# Emitters and disposables at work

A scene holds emitters, disposables and groups of disposables under names. A disposable runs its
action once, when it is first disposed. A group disposes its items together, and an item that is
added to a group that is already disposed is disposed at once. Callbacks and actions leave a mark in
a log and then do what they are told, which may touch any object of the scene; an error in them
reaches whoever called them.
-/

namespace Dialects.Events

/-- What can be done in a scene; `ν` is the type of the values that are emitted. -/
inductive Deed (ν : Type) where
  /-- Makes an emitter. -/
  | makeEmitter (name : String)
  /-- Makes a group. -/
  | makeGroup (name : String)
  /-- Makes a disposable, with an action or without. -/
  | makeDisposable (name : String) (action : Option (List (Deed ν)))
  /-- Defines a callback. -/
  | makeCallback (name : String) (deeds : List (Deed ν))
  /-- Subscribes a callback; the subscription becomes a disposable. -/
  | subscribe (emitter callback subscription : String)
  /-- Calls the callbacks of an emitter. -/
  | emit (emitter : String) (args : List ν)
  /-- Drops all callbacks of an emitter. -/
  | clear (emitter : String)
  /-- Adds an item to a group. -/
  | add (group item : String)
  /-- Takes an item out of a group. -/
  | remove (group item : String)
  /-- Disposes a disposable or a group. -/
  | dispose (name : String)
  /-- Fails. -/
  | fail (reason : String)

/-- What a callback or an action is: the name under which it is logged, and what it does then. -/
structure Routine (ν : Type) where
  /-- The name in the log. -/
  name : String
  /-- What it does. -/
  deeds : List (Deed ν)

/-- What a disposable does when it is disposed. -/
inductive DisposeAction (ν : Type) where
  /-- Runs a routine. -/
  | run (routine : Routine ν)
  /-- Takes a callback, given by its number, back from an emitter. -/
  | unsubscribe (emitter : Nat) (callback : Nat)

/-- An object of a scene. Objects and callbacks are referred to by their numbers. -/
inductive Object (ν : Type) where
  /-- An emitter. -/
  | emitter (e : Emitter Nat)
  /-- A group: its items, and whether it has been disposed. -/
  | group (items : List Nat) (disposed : Bool)
  /-- A disposable: the action it still has, and whether it has been disposed. -/
  | disposable (action : Option (DisposeAction ν)) (disposed : Bool)

/-- A scene. -/
structure Scene (ν : Type) where
  /-- All objects ever made, by their numbers. -/
  objects : List (Object ν)
  /-- All callbacks ever defined, by their numbers. -/
  callbacks : List (Routine ν)
  /-- The numbers of the objects that have names. -/
  names : List (String × Nat)
  /-- The numbers of the callbacks. -/
  callbackNames : List (String × Nat)
  /-- The routines that have been called, each with the values it was called with. -/
  log : List (String × List ν)

namespace Scene

variable {ν : Type}

/-- A scene without objects. -/
def empty : Scene ν := ⟨[], [], [], [], []⟩

/-- Puts a name for a number into a table. -/
def bind (name : String) (n : Nat) (table : List (String × Nat)) : List (String × Nat) :=
  table.filter (fun e => e.1 ≠ name) ++ [(name, n)]

/-- Makes an object under a name; an object that had the name loses it. -/
def make (name : String) (o : Object ν) (s : Scene ν) : Scene ν :=
  { s with objects := s.objects ++ [o], names := bind name s.objects.length s.names }

/-- Changes an object. -/
def put (n : Nat) (o : Object ν) (s : Scene ν) : Scene ν := { s with objects := s.objects.set n o }

/-- The number of a name. -/
def number (table : Scene ν → List (String × Nat)) (name : String) : Action (Scene ν) Nat := do
  match (← .ask table).lookup name with
  | some n => pure n
  | none => throw (.missingKey name)

/-- An object by its number. -/
def object (n : Nat) : Action (Scene ν) (Object ν) := do
  match (← .ask Scene.objects)[n]? with
  | some o => pure o
  | none => throw (.badIndex "no such object")

/-- The failure of a deed that an object of another sort is asked to do. -/
def wrongSort : Failure := .interrupted "no such operation on this object"

/-- The emitter that has a number. -/
def emitter (n : Nat) : Action (Scene ν) (Emitter Nat) := do
  match ← object n with
  | .emitter e => pure e
  | _ => throw wrongSort

/-- The group that has a number. -/
def group (n : Nat) : Action (Scene ν) (List Nat × Bool) := do
  match ← object n with
  | .group items disposed => pure (items, disposed)
  | _ => throw wrongSort

/-- Subscribes a callback to an emitter; a disposable under a name takes it back. -/
def subscribe (e c : Nat) (subscription : String) : Action (Scene ν) Unit := do
  let e' ← emitter e
  .change (put e (.emitter (e'.subscribe c)))
  .change (make subscription (.disposable (some (.unsubscribe e c)) false))

/-- Takes a callback back from an emitter. -/
def unsubscribe (e c : Nat) : Action (Scene ν) Unit := do
  let e' ← emitter e
  .change (put e (.emitter (e'.unsubscribe c)))

/-- Drops all callbacks of an emitter. -/
def clear (e : Nat) : Action (Scene ν) Unit := do
  let _ ← emitter e
  .change (put e (.emitter .empty))

/-- What is left to be done. -/
inductive Task (ν : Type) where
  /-- Do a deed. -/
  | deed (d : Deed ν)
  /-- Call a routine. -/
  | call (r : Routine ν) (args : List ν)
  /-- Dispose the object that has a number. -/
  | dispose (n : Nat)

/-- Carries out a task. Tasks lead to further tasks, nested at most `depth` deep. -/
def carryOut : (depth : Nat) → Task ν → Action (Scene ν) Unit
  | 0, _ => throw .nestedTooDeep
  | depth + 1, .call r args => do
    .change fun s => { s with log := s.log ++ [(r.name, args)] }
    r.deeds.forM fun d => carryOut depth (.deed d)
  | depth + 1, .dispose n => do
    match ← object n with
    | .emitter _ => throw wrongSort
    | .group items false =>
      -- The group counts as disposed before its items are, which may add to it.
      .change (put n (.group [] true))
      items.forM fun i => carryOut depth (.dispose i)
    | .disposable action false =>
      .change (put n (.disposable none true))
      match action with
      | none => pure ()
      | some (.run r) => carryOut depth (.call r [])
      | some (.unsubscribe e c) => unsubscribe e c
    | .group _ true | .disposable _ true => pure ()
  | depth + 1, .deed d => do
    match d with
    | .makeEmitter name => .change (make name (.emitter .empty))
    | .makeGroup name => .change (make name (.group [] false))
    | .makeDisposable name action =>
      .change (make name (.disposable (action.map fun ds => .run ⟨name, ds⟩) false))
    | .makeCallback name deeds =>
      .change fun s =>
        { s with
          callbacks := s.callbacks ++ [⟨name, deeds⟩]
          callbackNames := bind name s.callbacks.length s.callbackNames }
    | .subscribe e c subscription =>
      let e ← number Scene.names e
      let c ← number Scene.callbackNames c
      subscribe e c subscription
    | .emit e args =>
      let e' ← emitter (← number Scene.names e)
      -- The callbacks are those of the moment, whatever one of them does to the emitter.
      e'.callbacks.forM fun c => do
        match (← .ask Scene.callbacks)[c]? with
        | some r => carryOut depth (.call r args)
        | none => pure ()
    | .clear e => clear (← number Scene.names e)
    | .add g item =>
      let g ← number Scene.names g
      let item ← number Scene.names item
      let (items, disposed) ← group g
      if disposed then carryOut depth (.dispose item)
      else .change (put g (.group (items ++ [item]) false))
    | .remove g item =>
      let g ← number Scene.names g
      let item ← number Scene.names item
      let (items, disposed) ← group g
      .change (put g (.group (items.erase item) disposed))
    | .dispose name => carryOut depth (.dispose (← number Scene.names name))
    | .fail reason => throw (.interrupted reason)

/-- How deep tasks may be nested. -/
def maxDepth : Nat := 2000

/-- Does a deed. -/
def perform (d : Deed ν) : Action (Scene ν) Unit := carryOut maxDepth (.deed d)

end Scene

end Dialects.Events

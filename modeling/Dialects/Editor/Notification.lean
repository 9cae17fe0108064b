import Dialects.Failure

/-!
# Notifications

The editor lists what went wrong. A notification stays until it is dismissed, by the user or because
it has become stale: after a save that succeeds, the notifications about earlier saves and about
conversions to the lenient dialect that concern the same document are.
-/

namespace Dialects

/-- An entry of the editor's list of errors. -/
structure Notification where
  /-- A number that no other notification has. -/
  id : Nat
  /-- What the notification is about; also its title. -/
  category : String
  /-- What went wrong. -/
  detail : String
  /-- Whether the user may dismiss it. -/
  dismissable : Bool
  /-- The document concerned, if any. -/
  source : Option String
  /-- Whether it has been dismissed. -/
  dismissed : Bool
  deriving DecidableEq, Repr

namespace Notification

/-- The category of failed saves. -/
def saveCategory : String := "Couldn't save Lenient file"

/-- The category of failed conversions to the lenient dialect. -/
def toLenientCategory : String := "Couldn't convert to Lenient"

/-- The category of failed conversions from the lenient dialect. -/
def fromLenientCategory : String := "Couldn't convert from Lenient"

/-- The categories that a successful save makes stale. -/
def staleOnSave : List String := [saveCategory, toLenientCategory]

/-- Whether a successful save of a document, or of any document, makes the notification stale. -/
def isStale (source : Option String) (n : Notification) : Bool :=
  !n.dismissed && staleOnSave.contains n.category &&
    (source.isNone || n.source.isNone || n.source == source)

end Notification

/-- What listeners are told about the list. -/
inductive Signal where
  /-- A notification has been added. -/
  | added (id : Nat)
  /-- A notification has been dismissed. -/
  | dismissed (id : Nat)
  deriving DecidableEq, Repr

/-- The list of notifications and all that listeners have been told. -/
structure NotificationCentre where
  /-- The notifications, first one first. -/
  items : List Notification
  /-- How many notifications there have ever been. -/
  count : Nat
  /-- What listeners have been told, first signal first. -/
  signals : List Signal
  deriving DecidableEq, Repr

namespace NotificationCentre

/-- A list without notifications. -/
def empty : NotificationCentre := ⟨[], 0, []⟩

/-- The notification that is added next. -/
def next (c : NotificationCentre) (category detail : String) (dismissable : Bool)
    (source : Option String) : Notification :=
  ⟨c.count, category, detail, dismissable, source, false⟩

/-- Adds a notification. -/
def add (c : NotificationCentre) (category detail : String) (dismissable : Bool)
    (source : Option String) : NotificationCentre :=
  ⟨c.items ++ [c.next category detail dismissable source], c.count + 1,
    c.signals ++ [.added c.count]⟩

/-- Adds a notification about a failure. -/
def report (c : NotificationCentre) (category : String) (f : Failure) (source : Option String) :
    NotificationCentre :=
  c.add category f.message true source

/-- Dismisses the notifications that satisfy `p` and are not dismissed yet. -/
def dismissWhere (p : Notification → Bool) (c : NotificationCentre) : NotificationCentre :=
  let chosen := fun n : Notification => !n.dismissed && p n
  { c with
    items := c.items.map fun n => if chosen n then { n with dismissed := true } else n
    signals := c.signals ++ (c.items.filter chosen).map fun n => .dismissed n.id }

/-- How many notifications a successful save of a document makes stale. -/
def staleCount (c : NotificationCentre) (source : Option String) : Nat :=
  c.items.countP (Notification.isStale source)

/-- Dismisses what a successful save of a document makes stale. -/
def dismissStale (c : NotificationCentre) (source : Option String) : NotificationCentre :=
  c.dismissWhere (Notification.isStale source)

/-- The place in the list that an index means; a negative one counts from the end. -/
def place? (c : NotificationCentre) (index : Int) : Option Nat :=
  let n := if index < 0 then index + c.items.length else index
  if 0 ≤ n ∧ n < c.items.length then some n.toNat else none

/-- Dismisses the notification at an index. -/
def dismissAt (c : NotificationCentre) (index : Int) : Except Failure NotificationCentre :=
  match (c.place? index).bind (c.items[·]?) with
  | none => .error (.badIndex "list index out of range")
  | some n => .ok (c.dismissWhere fun m => m.id == n.id)

/-- Dismisses all notifications and empties the list. -/
def clear (c : NotificationCentre) : NotificationCentre :=
  { c.dismissWhere fun _ => true with items := [] }

/-- The notifications that have not been dismissed. -/
def visible (c : NotificationCentre) : List Notification := c.items.filter fun n => !n.dismissed

/-- What can be asked of the list. -/
inductive Command where
  /-- Reports a failure. -/
  | report (category : String) (failure : Failure) (source : Option String)
  /-- Adds a notification in words. -/
  | add (category detail : String) (dismissable : Bool) (source : Option String)
  /-- Dismisses what is stale. -/
  | dismissStale (source : Option String)
  /-- Dismisses one notification. -/
  | dismiss (index : Int)
  /-- Dismisses all and empties the list. -/
  | clear
  deriving Repr

/-- The list after a command. -/
def after (c : NotificationCentre) : Command → Except Failure NotificationCentre
  | .report category f source => .ok (c.report category f source)
  | .add category detail dismissable source => .ok (c.add category detail dismissable source)
  | .dismissStale source => .ok (c.dismissStale source)
  | .dismiss index => c.dismissAt index
  | .clear => .ok c.clear

end NotificationCentre

end Dialects

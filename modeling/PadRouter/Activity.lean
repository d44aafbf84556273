import PadRouter.Port
import PadRouter.Table

/-!
# Pad activity and its listeners

Pads that are asked to notify publish every batch of actions they send. Whoever is interested
subscribes, with a filter and possibly for one slot only.

* `Activity` — one published batch.
* `Subscription` — a listener's filter, its slot, its guard, and whether it is muted.
* `ActivityBus` — the subscriptions by their handles, which are never given twice.
* `ActivityBus.emit` — who receives an activity.
-/

namespace PadRouter

/-- One batch of actions that a pad has sent. -/
structure Activity where
  slot : Nat
  kind : PadKind
  port : Option Port
  actions : List Action
  deriving DecidableEq, Repr, Inhabited

namespace Activity

/-- Whether the batch holds nothing but releases. -/
def releasesOnly (a : Activity) : Bool := a.actions.all Action.isRelease

/-- Whether the batch presses fire. -/
def hasFire (a : Activity) : Bool := a.actions.contains .pressFire

/-- Whether the pad is bound to a port. -/
def isBound (a : Activity) : Bool := a.port.isSome

end Activity

/-- Which activity a listener wants to receive. -/
inductive ActivityFilter
  | all
  | joystickOnly
  | mouseOnly
  | custom (accepts : Activity → Bool)

/-- Whether a filter lets an activity through. -/
def ActivityFilter.accepts : ActivityFilter → Activity → Bool
  | all, _ => true
  | joystickOnly, a => a.kind == .joystick
  | mouseOnly, a => a.kind == .mouse
  | custom accepts, a => accepts a

/-- What a listener does with an activity. -/
inductive Sink
  /-- It keeps the activity. -/
  | recorder
  /-- It writes a notice. -/
  | logger
  deriving DecidableEq, Repr, Inhabited

/-- A listener that has subscribed. -/
structure Subscription where
  filter : ActivityFilter
  /-- The only slot to listen to, if there is a restriction. -/
  slot : Option Nat := none
  /-- A further condition in front of the listener. -/
  guard : Activity → Bool := fun _ => true
  sink : Sink := .recorder
  enabled : Bool := true

/-- Whether a listener receives an activity. -/
def Subscription.receives (s : Subscription) (a : Activity) : Bool :=
  s.enabled && s.slot.all (· == a.slot) && s.filter.accepts a && s.guard a

/-- An activity that has reached a listener. -/
structure Delivery where
  listener : Nat
  sink : Sink
  activity : Activity
  deriving DecidableEq, Repr, Inhabited

/-- The subscriptions by their handles, and the handle to be given next. -/
structure ActivityBus where
  next : Nat := 0
  listeners : Table Nat Subscription := {}

namespace ActivityBus

instance : Inhabited ActivityBus := ⟨{}⟩

/-- Adds a listener. Its handle is `next`. -/
def subscribe (b : ActivityBus) (s : Subscription) : ActivityBus :=
  { next := b.next + 1, listeners := b.listeners.insert b.next s }

/-- Mutes a listener or lets it hear again. An unknown handle changes nothing. -/
def setEnabled (b : ActivityBus) (handle : Nat) (on : Bool) : ActivityBus :=
  { b with listeners := b.listeners.modify handle fun s => { s with enabled := on } }

/-- Removes a listener. An unknown handle changes nothing. -/
def unsubscribe (b : ActivityBus) (handle : Nat) : ActivityBus :=
  { b with listeners := b.listeners.erase handle }

/-- The listeners that receive an activity. -/
def emit (b : ActivityBus) (a : Activity) : List Delivery :=
  b.listeners.entries.filterMap fun e =>
    if e.2.receives a then some ⟨e.1, e.2.sink, a⟩ else none

/-- The bus as it is shown to a developer. -/
def describe (b : ActivityBus) : String :=
  "ActionBus \x7b listeners: " ++ toString b.listeners.size ++ " \x7d"

end ActivityBus

end PadRouter

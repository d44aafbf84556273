import PadRouter.Router
import PadRouter.Watcher

/-!
# Sources of events

A router is fed by a source of HID events, which hands out all events that wait at once.

* `EventQueue` — events that are put in by hand, for tests and demonstrations, with
  `EventQueue.feed` and `EventQueue.poll` for putting in and handing out.
* `Router.pump` — hands the events of a queue to a router.
* `Router.pumpHost` — hands what a poll of the host finds to a router.
-/

namespace PadRouter

/-- A named queue of events. -/
structure EventQueue where
  name : String
  events : List HidEvent := []

namespace EventQueue

instance : Inhabited EventQueue := ⟨{ name := "" }⟩

/-- Puts an event behind the others. -/
def feed (q : EventQueue) (e : HidEvent) : EventQueue := { q with events := q.events ++ [e] }

/-- Number of events that wait. -/
def pending (q : EventQueue) : Nat := q.events.length

/-- Hands out all events, in the order in which they were put in. -/
def poll (q : EventQueue) : EventQueue × List HidEvent := ({ q with events := [] }, q.events)

end EventQueue

namespace Router

/-- Hands all events that wait to the router. The result is their number. -/
def pump (r : Router) (q : EventQueue) : EventQueue × Outcome Router Nat :=
  let polled := q.poll
  (polled.1, (r.handleAll polled.2).mapResult fun _ => polled.2.length)

/-- Polls the host and hands the events to the router. The result is their number. If the host
cannot be polled nothing is handed on. -/
def pumpHost {δ : Type} [DeviceDecoder δ] (r : Router) (t : Traversal) (w : Watcher δ) (h : Host) :
    Except HostError (Outcome (Router × Watcher δ × Host) Nat) :=
  (w.pollIn t h).map fun polled =>
    polled.andThen fun s events =>
      ((r.handleAll events).mapState fun r => (r, s)).mapResult fun _ => events.length

end Router

end PadRouter

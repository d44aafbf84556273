import Mathlib.Algebra.GroupWithZero.Nat
import PadRouter.Proofs.Router.Devices
import PadRouter.Proofs.Router.Publishing
import PadRouter.Router.EventQueue

/-!
# Events in batches

A queue keeps events until somebody pumps. How many of them a pump finds depends on when it comes,
and makes no difference to the router.

* `QueueStep`, `Queued.step`, `Queued.run` — a router with the queue that feeds it: an event is put
  in, or all that wait are handed over.
* `fed`, `handed`, `kept` — the events that some steps put in, those that each pump hands over, and
  those that wait afterwards; `handed_append_kept` — none is lost, repeated or moved.
* `Queued.run_eq` — some steps do to the router what the events handed over do to it.
* `Queued.batching_is_free` — with a pump at the end, all events have been handled one by one.
-/

namespace PadRouter

/-- What is done to a queue. -/
inductive QueueStep
  /-- An event is put in. -/
  | feed (event : HidEvent)
  /-- All events that wait are handed to the router. -/
  | pump
  deriving DecidableEq

/-- A router, and the queue that feeds it. -/
structure Queued where
  router : Router
  queue : EventQueue

/-! ### The events of some steps -/

/-- The events that are put in, in order. -/
def fed (steps : List QueueStep) : List HidEvent :=
  steps.filterMap fun step =>
    match step with
    | .feed event => some event
    | .pump => none

/-- The events that each pump hands over, where some wait at the beginning. -/
def handed : List HidEvent → List QueueStep → List (List HidEvent)
  | _, [] => []
  | waiting, .feed event :: rest => handed (waiting ++ [event]) rest
  | waiting, .pump :: rest => waiting :: handed [] rest

/-- The events that wait at the end. -/
def kept : List HidEvent → List QueueStep → List HidEvent
  | waiting, [] => waiting
  | waiting, .feed event :: rest => kept (waiting ++ [event]) rest
  | _, .pump :: rest => kept [] rest

variable {steps : List QueueStep} {waiting : List HidEvent}

/-- What has waited and what has been put in is handed over in this order, or waits still. -/
theorem handed_append_kept (waiting : List HidEvent) (steps : List QueueStep) :
    (handed waiting steps).flatten ++ kept waiting steps = waiting ++ fed steps := by
  induction steps generalizing waiting with
  | nil => exact (List.append_nil waiting).symm
  | cons step rest ih =>
    cases step with
    | feed event =>
      have hfed : fed (.feed event :: rest) = event :: fed rest := rfl
      rw [handed, kept, ih, hfed, List.append_assoc]
      rfl
    | pump =>
      have hfed : fed (.pump :: rest) = fed rest := rfl
      rw [handed, kept, List.flatten_cons, List.append_assoc, ih, hfed]
      rfl

theorem kept_concat_pump (waiting : List HidEvent) (steps : List QueueStep) :
    kept waiting (steps ++ [.pump]) = [] := by
  induction steps generalizing waiting with
  | nil => rfl
  | cons step rest ih => cases step <;> exact ih _

theorem length_handed (waiting : List HidEvent) (steps : List QueueStep) :
    (handed waiting steps).length = steps.count .pump := by
  induction steps generalizing waiting with
  | nil => rfl
  | cons step rest ih =>
    cases step with
    | feed event => rw [handed, ih, List.count_cons_of_ne (by simp)]
    | pump => rw [handed, List.length_cons, ih, List.count_cons_self]

theorem fed_concat_pump (steps : List QueueStep) : fed (steps ++ [.pump]) = fed steps := by
  simp [fed]

/-! ### Events one by one -/

namespace Router

theorem deliveriesOf_map_handle (r : Router) (events : List HidEvent) :
    (r.handleAll events).trace.deliveries = r.deliveriesOf (events.map .handle) := by
  induction events generalizing r with
  | nil => rfl
  | cons event rest ih => exact congrArg _ (ih (r.handle event).state)

end Router

/-! ### Runs -/

namespace Queued

/-- One step; a pump gives the number of events that it hands over. -/
def step (s : Queued) : QueueStep → Outcome Queued (List Nat)
  | .feed event => ⟨{ s with queue := s.queue.feed event }, [], {}⟩
  | .pump =>
    let pumped := s.router.pump s.queue
    ⟨⟨pumped.2.state, pumped.1⟩, [pumped.2.result], pumped.2.trace⟩

/-- Some steps; the numbers that the pumps give come in their order. -/
def run (s : Queued) (steps : List QueueStep) : Outcome Queued (List Nat) :=
  Outcome.collect step s steps

theorem run_cons (s : Queued) (first : QueueStep) (rest : List QueueStep) :
    s.run (first :: rest) =
      (s.step first).andThen fun s numbers =>
        (s.run rest).mapResult fun later => numbers ++ later := rfl

/-- Some steps do to the router what the events that are handed over do to it, one after the
other. -/
theorem run_eq (s : Queued) (steps : List QueueStep) :
    let batches := handed s.queue.events steps
    let handled := s.router.handleAll batches.flatten
    s.run steps =
      ⟨⟨handled.state, { s.queue with events := kept s.queue.events steps }⟩,
        batches.map List.length, handled.trace⟩ := by
  induction steps generalizing s with
  | nil => rfl
  | cons first rest ih =>
    cases first with
    | feed event =>
      rw [run_cons]
      simp only [Outcome.andThen, ih]
      rfl
    | pump =>
      -- the events of this pump come first, then those of the later ones
      rw [run_cons]
      simp only [Outcome.andThen, ih, handed, kept, List.flatten_cons, Router.handleAll,
        Outcome.forEach_append]
      rfl

/-- **It does not matter when one pumps.** Whatever waits in a queue and whatever is put in later,
some of it has been handled after each step, in order and with the effect of handling it one by one,
and the rest waits; the numbers that the pumps give tell how much. With a pump at the end nothing
waits: the router, the calls on the ports, the activities that listeners hear and the notices are
those of all events, handled one by one in the order in which they were put in. The batches of the
pumps, one for each, make up these events, each of which is in one batch once, and their lengths are
the numbers that the pumps give. -/
theorem batching_is_free (r : Router) (q : EventQueue) (steps : List QueueStep) :
    let now := run ⟨r, q⟩ steps
    let o := run ⟨r, q⟩ (steps ++ [.pump])
    let events := q.events ++ fed steps
    let batches := handed q.events (steps ++ [.pump])
    (∃ handled, handled ++ now.state.queue.events = events ∧
      now.state.router = r.run (handled.map .handle) ∧
      now.trace = (r.handleAll handled).trace ∧ now.result.sum = handled.length) ∧
    o.state = ⟨r.run (events.map .handle), { q with events := [] }⟩ ∧
    o.trace.calls = r.callsOf (events.map .handle) ∧
    o.trace.deliveries = r.deliveriesOf (events.map .handle) ∧
    o.trace.notices = (r.handleAll events).trace.notices ∧
    batches.flatten = events ∧ batches.length = steps.count .pump + 1 ∧
    o.result = batches.map List.length ∧ o.result.sum = events.length := by
  intro now o events batches
  have hnow : now = _ := run_eq ⟨r, q⟩ steps
  have ho : o = _ := run_eq ⟨r, q⟩ (steps ++ [.pump])
  have hbatches : batches.flatten = events := by
    have hall := handed_append_kept q.events (steps ++ [.pump])
    rwa [kept_concat_pump, List.append_nil, fed_concat_pump] at hall
  have hcount : batches.length = steps.count .pump + 1 := by
    rw [length_handed, List.count_append]
    rfl
  have htrace : o.trace = (r.handleAll events).trace := by
    rw [ho, ← hbatches]
  have hresult : o.result = batches.map List.length := by rw [ho]
  refine ⟨⟨(handed q.events steps).flatten, ?_, ?_, ?_, ?_⟩, ?_, ?_, ?_, ?_, hbatches, hcount,
    hresult, ?_⟩
  · rw [hnow]
    exact handed_append_kept q.events steps
  · rw [Router.run_map_handle, hnow]
  · rw [hnow]
  · rw [hnow, List.length_flatten]
  · rw [ho, Router.run_map_handle, ← hbatches, kept_concat_pump]
  · rw [htrace, Router.calls_handleAll]
  · rw [htrace, Router.deliveriesOf_map_handle]
  · rw [htrace]
  · rw [hresult, ← hbatches, List.length_flatten]

end Queued

end PadRouter

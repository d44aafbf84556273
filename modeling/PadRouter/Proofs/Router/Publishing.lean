import PadRouter.Proofs.Activity.Deliveries
import PadRouter.Proofs.Router.Hush

/-!
# What is published

A pad that is asked to publishes the actions that a reading is decoded into, and nothing else is
published. Whether somebody listens makes no difference to anything but that.

* `Router.Incoming`, `Router.incoming` — the readings that come in during a run, directly or among
  events, each with the router at its moment.
* `Router.Incoming.activity?` — what is published of a reading, and
  `Router.Incoming.activity?_eq_some_iff` — when this is the case.
* `Router.deliveriesOf` — the deliveries of a run, in order; `Router.deliveriesOf_eq` — they are
  those of its readings.
* `Router.publishing_is_exact_and_passive` — every listener hears what is published at its moment,
  and a run does the same whoever publishes and listens.
-/

namespace PadRouter

namespace ActivityBus

theorem received_flatMap {α : Type} (handle : Nat) (l : List α) (f : α → List Delivery) :
    received handle (l.flatMap f) = l.flatMap fun x => received handle (f x) := by
  simp only [received, List.filter_flatMap, List.map_flatMap]

end ActivityBus

theorem Pad.deliveries_perform (p : Pad) (cmd : Pad.Command) :
    (p.perform cmd).trace.deliveries = [] := by
  obtain ⟨kind, port, givenName, icon, keyMap, device, known, notify, decoder, held⟩ := p
  have hkey : ∀ (q : Pad) decoded notice, (q.afterKey decoded notice).trace.deliveries = [] := by
    intro q decoded notice
    unfold afterKey
    split <;> rfl
  cases cmd with
  | resolve register => cases device <;> rfl
  | handleReading reading => cases kind <;> rfl
  | keyDown maps key =>
    cases keyMap with
    | none => rfl
    | some id => exact hkey _ _ _
  | keyUp maps key =>
    cases keyMap with
    | none => rfl
    | some id => exact hkey _ _ _
  | _ => rfl

namespace Router

/-- A reading that comes in, and the router at that moment. -/
structure Incoming where
  router : Router
  location : String
  reading : Reading

namespace Incoming

/-- The actions that the reading is decoded into. -/
def answer (x : Incoming) : List Action := (x.router.processHid x.location x.reading).result

/-- What is published of the reading: its actions, if there are any and the pad is asked to
publish. -/
def activity? (x : Incoming) : Option Activity :=
  (x.router.slotOf? x.location).bind fun slot => (x.router.pad? slot).bind fun p =>
    if p.notify && !x.answer.isEmpty then some ⟨slot, p.kind, p.port, x.answer⟩ else none

/-- Who hears what is published of the reading. -/
def deliveries (x : Incoming) : List Delivery := x.activity?.toList.flatMap x.router.bus.emit

/-- What the listener with a handle hears of the reading. -/
def heard? (handle : Nat) (x : Incoming) : Option Activity :=
  x.activity?.filter fun a => (x.router.bus.listeners.get? handle).any (Subscription.receives · a)

end Incoming

/-- The device events that a command brings, and the reading that it brings itself. -/
def Command.inputs : Command → List HidEvent
  | processHid location reading => [.value location reading]
  | cmd => cmd.events

/-- The reading that an event brings, if it brings one. -/
def incomingOf (r : Router) : HidEvent → List Incoming
  | .value location reading => [⟨r, location, reading⟩]
  | _ => []

/-- The readings that some events bring, in order. -/
def incomingIn : Router → List HidEvent → List Incoming
  | _, [] => []
  | r, event :: rest => r.incomingOf event ++ incomingIn (r.handle event).state rest

/-- The readings that come in during a run, in order. -/
def incoming : Router → List Command → List Incoming
  | _, [] => []
  | r, cmd :: rest => r.incomingIn cmd.inputs ++ incoming (r.perform cmd).state rest

/-- The deliveries of some commands, in order. -/
def deliveriesOf : Router → List Command → List Delivery
  | _, [] => []
  | r, cmd :: rest => (r.perform cmd).trace.deliveries ++ deliveriesOf (r.perform cmd).state rest

variable {r : Router} {limit slot : Nat} {p : Pad} {location : String} {x : Incoming} {a : Activity}
  {cmds : List Command}

/-! ### One reading -/

theorem deliveries_publish (r : Router) (slot : Nat) (p : Pad) (actions : List Action) :
    (r.publish slot p actions).deliveries =
      if p.notify && !actions.isEmpty then r.bus.emit ⟨slot, p.kind, p.port, actions⟩ else [] := by
  unfold publish
  split <;> rfl

/-- A pad publishes what it decodes, with the slot, the kind and the port that it has. -/
theorem deliveries_processHid_of_pad (hslot : r.slotOf? location = some slot)
    (hp : r.pad? slot = some p) (reading : Reading) :
    let actions := (p.handleReading reading).result
    (r.processHid location reading).trace.deliveries =
      if p.notify && !actions.isEmpty then r.bus.emit ⟨slot, p.kind, p.port, actions⟩ else [] := by
  intro actions
  have hnone : (p.handleReading reading).trace.deliveries = [] :=
    p.deliveries_perform (.handleReading reading)
  have hsame := p.undisturbed_handleReading reading
  have hnotify : (p.handleReading reading).state.notify = p.notify := by
    unfold Pad.handleReading
    split <;> rfl
  have hboth : (r.processHid location reading).trace.deliveries =
      (p.handleReading reading).trace.deliveries ++
        (r.publish slot (p.handleReading reading).state actions).deliveries := by
    simp only [processHid, hslot, onPad, hp]
    rfl
  rw [hboth, hnone, List.nil_append, deliveries_publish, hnotify, hsame.kind, hsame.port]

theorem Incoming.activity?_of_pad (hslot : r.slotOf? location = some slot)
    (hp : r.pad? slot = some p) (reading : Reading) :
    let actions := (p.handleReading reading).result
    (⟨r, location, reading⟩ : Incoming).activity? =
      if p.notify && !actions.isEmpty then some ⟨slot, p.kind, p.port, actions⟩ else none := by
  intro actions
  have hanswer : (⟨r, location, reading⟩ : Incoming).answer = actions :=
    (processHid_of_pad hslot hp reading).1
  simp only [activity?, hanswer, hslot, hp, Option.bind_some]

theorem deliveries_processHid (r : Router) (location : String) (reading : Reading) :
    (r.processHid location reading).trace.deliveries =
      (⟨r, location, reading⟩ : Incoming).deliveries := by
  cases hslot : r.slotOf? location with
  | none =>
    simp only [processHid, hslot, Incoming.deliveries, Incoming.activity?]
    rfl
  | some slot =>
    obtain ⟨p, hp, -⟩ := exists_of_slotOf? hslot
    rw [deliveries_processHid_of_pad hslot hp, Incoming.deliveries,
      Incoming.activity?_of_pad hslot hp]
    split
    · rw [Option.toList_some, List.flatMap_singleton]
    · rfl

theorem Incoming.received_deliveries (x : Incoming) (handle : Nat) :
    ActivityBus.received handle x.deliveries = (x.heard? handle).toList := by
  rw [deliveries, heard?]
  cases x.activity? with
  | none => rfl
  | some a =>
    rw [Option.toList_some, List.flatMap_singleton, ActivityBus.received_emit, Option.filter_some]
    split <;> rfl

/-- In a router whose devices sit one at each location, the pad that publishes is the one there. -/
theorem Incoming.activity?_eq_some_iff (h : x.router.WellSeated limit) :
    x.activity? = some a ↔ a.actions = x.answer ∧ x.answer ≠ [] ∧
      ∃ p, x.router.pad? a.slot = some p ∧ p.location? = some x.location ∧ p.notify = true ∧
        a.kind = p.kind ∧ a.port = p.port := by
  simp only [activity?, Option.bind_eq_some_iff, Option.ite_none_right_eq_some, Option.some.injEq,
    Bool.and_eq_true, Bool.not_eq_true', List.isEmpty_eq_false_iff, h.slotOf?_eq_some_iff]
  constructor
  · rintro ⟨slot, ⟨q, hq, hloc⟩, p, hp, ⟨hnotify, hsome⟩, rfl⟩
    obtain rfl : q = p := Option.some.inj (hq.symm.trans hp)
    exact ⟨rfl, hsome, q, hp, hloc, hnotify, rfl, rfl⟩
  · rintro ⟨hactions, hsome, p, hp, hloc, hnotify, hkind, hport⟩
    refine ⟨a.slot, ⟨p, hp, hloc⟩, p, hp, ⟨hnotify, hsome⟩, ?_⟩
    rw [← hactions, ← hkind, ← hport]

/-! ### Commands -/

theorem deliveries_onPad {α : Type} {f : Pad → Outcome Pad α}
    (hf : ∀ p, (f p).trace.deliveries = []) (r : Router) (slot : Nat) (otherwise : α) :
    (r.onPad slot otherwise f).trace.deliveries = [] := by
  unfold onPad
  split
  · exact hf _
  · rfl

theorem deliveries_onMouse {f : Pad → Outcome Pad Bool} (hf : ∀ p, (f p).trace.deliveries = [])
    (r : Router) (slot : Nat) : (r.onMouse slot f).trace.deliveries = [] := by
  refine deliveries_onPad (fun p => ?_) r slot false
  split
  · exact hf p
  · rfl

theorem deliveries_handle (r : Router) (event : HidEvent) :
    (r.handle event).trace.deliveries = (r.incomingOf event).flatMap Incoming.deliveries := by
  cases event with
  | arrived device => exact (r.silent_handle_arrived device).deliveries
  | removed location => rfl
  | value location reading =>
    rw [incomingOf, List.flatMap_singleton]
    exact r.deliveries_processHid location reading

theorem deliveries_handleAll (r : Router) (events : List HidEvent) :
    (r.handleAll events).trace.deliveries = (r.incomingIn events).flatMap Incoming.deliveries := by
  induction events generalizing r with
  | nil => rfl
  | cons event rest ih =>
    rw [incomingIn, List.flatMap_append, ← r.deliveries_handle event, ← ih]
    rfl

/-- Nothing is published but what the readings of a command give. -/
theorem deliveries_perform (r : Router) (cmd : Command) :
    (r.perform cmd).trace.deliveries = (r.incomingIn cmd.inputs).flatMap Incoming.deliveries := by
  have hevent : ∀ event, (r.incomingIn [event]).flatMap Incoming.deliveries =
      (r.handle event).trace.deliveries := by
    intro event
    rw [incomingIn, incomingIn, List.append_nil, deliveries_handle]
  cases cmd with
  | arrive device => exact (hevent (.arrived device)).symm
  | remove location => exact (hevent (.removed location)).symm
  | handle event => exact (hevent event).symm
  | pump events => exact r.deliveries_handleAll events
  | processHid location reading => exact (hevent (.value location reading)).symm
  | keyDown key => exact (r.onKey_spec true key).deliveries
  | keyUp key => exact (r.onKey_spec false key).deliveries
  | mouseMoved slot dx dy answer => exact deliveries_onMouse (fun _ => rfl) r slot
  | mouseButtons slot actions => exact deliveries_onMouse (fun _ => rfl) r slot
  | pad slot cmd => exact deliveries_onPad (fun p => p.deliveries_perform cmd) r slot _
  | _ => rfl

/-! ### Runs -/

theorem deliveriesOf_eq (r : Router) (cmds : List Command) :
    r.deliveriesOf cmds = (r.incoming cmds).flatMap Incoming.deliveries := by
  induction cmds generalizing r with
  | nil => rfl
  | cons cmd rest ih => rw [deliveriesOf, incoming, List.flatMap_append, deliveries_perform, ih]

theorem received_deliveriesOf (r : Router) (cmds : List Command) (handle : Nat) :
    ActivityBus.received handle (r.deliveriesOf cmds) =
      (r.incoming cmds).filterMap (Incoming.heard? handle) := by
  rw [deliveriesOf_eq, ActivityBus.received_flatMap, List.filterMap_eq_flatMap_toList]
  exact List.flatMap_congr fun x _ => x.received_deliveries handle

theorem wellSeated_incomingIn {events : List HidEvent} (h : r.WellSeated limit)
    (hx : x ∈ r.incomingIn events) : x.router.WellSeated limit := by
  induction events generalizing r with
  | nil => cases hx
  | cons event rest ih =>
    rcases List.mem_append.mp hx with hx | hx
    · cases event with
      | value location reading =>
        rw [List.mem_singleton.mp hx]
        exact h
      | _ => cases hx
    · exact ih (wellSeated_perform h (.handle event)) hx

theorem wellSeated_incoming (h : r.WellSeated limit) (hx : x ∈ r.incoming cmds) :
    x.router.WellSeated limit := by
  induction cmds generalizing r with
  | nil => cases hx
  | cons cmd rest ih =>
    rcases List.mem_append.mp hx with hx | hx
    · exact wellSeated_incomingIn h hx
    · exact ih (wellSeated_perform h cmd) hx

/-- **Publishing is exact and passive.** Over every run, what is published is, reading by reading,
the actions that the reading is decoded into, if there are any and the pad at its location is asked
to publish at that moment, with the slot, the kind and the port of the pad. A listener hears of each
what it takes in then; keys, the mouse and all else publish nothing. And a run that differs in who
publishes and who listens returns the same, makes the same calls and leaves the same router behind,
but for the wish to publish and the listeners. -/
theorem publishing_is_exact_and_passive (c : Config) (register : Register) (cmds : List Command) :
    let r := (start c register).state
    (∀ x ∈ r.incoming cmds, ∀ a, x.activity? = some a ↔ a.actions = x.answer ∧ x.answer ≠ [] ∧
      ∃ p, x.router.pad? a.slot = some p ∧ p.location? = some x.location ∧ p.notify = true ∧
        a.kind = p.kind ∧ a.port = p.port) ∧
    r.deliveriesOf cmds =
      (r.incoming cmds).flatMap (fun x => x.activity?.toList.flatMap x.router.bus.emit) ∧
    (∀ handle, ActivityBus.received handle (r.deliveriesOf cmds) =
      (r.incoming cmds).filterMap (Incoming.heard? handle)) ∧
    ∀ others, heeded others = heeded cmds →
      r.responses others = r.responses cmds ∧ r.callsOf others = r.callsOf cmds ∧
        (r.run others).hush = (r.run cmds).hush ∧
        (r.run others).snapshot = (r.run cmds).snapshot := by
  intro r
  have hseats : r.WellSeated (max c.slotLimit.toNat builtinSlots) := wellSeated_start c register
  refine ⟨fun x hx a => Incoming.activity?_eq_some_iff (wellSeated_incoming hseats hx),
    r.deliveriesOf_eq cmds, r.received_deliveriesOf cmds, fun others hothers => ?_⟩
  obtain ⟨hstate, hresponses, hcalls⟩ := r.run_hush cmds
  obtain ⟨hstate', hresponses', hcalls'⟩ := r.run_hush others
  rw [hothers] at hstate' hresponses' hcalls'
  have hhush : (r.run others).hush = (r.run cmds).hush := hstate'.trans hstate.symm
  refine ⟨hresponses'.trans hresponses.symm, hcalls'.trans hcalls.symm, hhush, ?_⟩
  rw [← snapshot_hush, hhush, snapshot_hush]

/-- A stick that is bound to no port publishes nothing at first; then it is asked to, and a listener
hears fire let go and pressed again. -/
example :
    let stick : Device := ⟨"1", "1", "a", none, none, none, none, false, none, none⟩
    let cmds : List Command :=
      [.editBus fun b => b.subscribe { filter := .all }, .arrive stick,
        .processHid "a" (.button 1 true), .setNotify 3 true, .processHid "a" (.button 1 false),
        .pump [.value "a" (.button 1 true)]]
    ActivityBus.received 0 ((start {} .shipped).state.deliveriesOf cmds) =
      [⟨3, .joystick, none, [.releaseFire]⟩, ⟨3, .joystick, none, [.pressFire]⟩] := by
  decide +kernel

end Router

end PadRouter

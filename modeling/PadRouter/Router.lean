import PadRouter.Config
import PadRouter.Pad

/-!
# The router

The router keeps the pads in numbered slots and routes every input to the pad that it belongs to.
Slots `0`, `1` and `2` hold the host mouse and the two key sets; an attached device takes the lowest
free slot below the limit and gives it back when it leaves.

* `Reservations` — the slot that the user wants on each port.
* `Router` — the slots, the binding tables, the device register and the listeners.
* `Router.bindPort`, `Router.unbindPort` — at most one pad is bound to a port.
* `Router.arrive`, `Router.remove` — devices come and go.
* `Router.processHid`, `Router.keyDown`, `Router.keyUp`, `Router.mouseMoved`, `Router.mouseButtons`
  — inputs.
* `Router.handle`, `Router.handleAll` — the events of a source of HID events.
-/

namespace PadRouter

/-- The slot that the user wants on each port. It is applied again when a device arrives. -/
structure Reservations where
  one : Option Nat := none
  two : Option Nat := none
  deriving DecidableEq, Repr, Inhabited

namespace Reservations

/-- The slot wanted on a port. -/
def get (r : Reservations) : Port → Option Nat
  | .one => r.one
  | .two => r.two

/-- Reserves a port for a slot or for none. -/
def set (r : Reservations) (port : Port) (slot : Option Nat) : Reservations :=
  match port with
  | .one => { r with one := slot }
  | .two => { r with two := slot }

/-- Reserves a port for a slot, which then is no longer wanted on the other port. -/
def claim (r : Reservations) (port : Port) (slot : Nat) : Reservations :=
  (if r.get port.other = some slot then r.set port.other none else r).set port (some slot)

theorem get_set (r : Reservations) (p q : Port) (slot : Option Nat) :
    (r.set p slot).get q = if q = p then slot else r.get q := by
  cases p <;> cases q <;> rfl

end Reservations

/-- The slots and all that belongs to them. -/
structure Router where
  pads : Table Nat Pad
  /-- How many slots there are, built-in pads included. -/
  slotLimit : Nat
  keyMaps : KeyMaps
  register : Register
  bus : ActivityBus := {}
  /-- Whether a key that drives a pad is kept from the emulated keyboard. -/
  disconnectKeys : Bool := true
  /-- Whether mouse movement is offered to the shake detector. -/
  releaseMouseByShaking : Bool := true
  reservations : Reservations := {}
  deriving Inhabited

namespace Router

/-! ### Slots -/

/-- The pads that are always there. -/
def builtinPads : Table Nat Pad :=
  Table.empty.insertAll
    [(0, (Pad.mouse "Mouse" (some .mouse)).withIcon "devMouse"),
      (1, (Pad.keyboard "Joystick Keyset 1" .keyset1).withIcon "devKeyset1"),
      (2, (Pad.keyboard "Joystick Keyset 2" .keyset2).withIcon "devKeyset2")]

/-- The pad in a slot. -/
def pad? (r : Router) (slot : Nat) : Option Pad := r.pads.get? slot

/-- Whether a slot holds a pad. -/
def isUsed (r : Router) (slot : Nat) : Bool := r.pads.contains slot

/-- The name to show for a slot. -/
def name (r : Router) (slot : Nat) : String := ((r.pad? slot).map Pad.name).getD externalName

/-- The icon of a slot. -/
def icon? (r : Router) (slot : Nat) : Option String := (r.pad? slot).bind Pad.icon

/-- The lowest free slot below the limit. Among the first `n + 1` slots one is free if there are
`n` pads, so no slot beyond those is looked at. -/
def freeSlot? (r : Router) : Option Nat :=
  (List.range (min r.slotLimit (r.pads.size + 1))).find? fun slot => !r.isUsed slot

/-- Looks for a free slot, with a notice if there is none. -/
def findFreeSlot (r : Router) : Outcome Router (Option Nat) :=
  ⟨r, r.freeSlot?,
    .ofNotices (if r.freeSlot?.isNone then [.slotsExhausted r.slotLimit] else [])⟩

/-- The slot whose pad is bound to a port. -/
def slotOn (r : Router) (port : Port) : Option Nat :=
  (r.pads.find? fun _ p => p.port == some port).map (·.1)

/-- The slot of the device at a location. -/
def slotOf? (r : Router) (location : String) : Option Nat :=
  (r.pads.find? fun _ p => p.location? == some location).map (·.1)

/-- Runs an operation on the pad in a slot. An empty slot gives `otherwise`. -/
def onPad {α : Type} (r : Router) (slot : Nat) (otherwise : α) (f : Pad → Outcome Pad α) :
    Outcome Router α :=
  match r.pad? slot with
  | some p => (f p).mapState fun p => { r with pads := r.pads.insert slot p }
  | none => ⟨r, otherwise, {}⟩

/-! ### Ports -/

/-- The pads, none of them bound to `port`. -/
def vacate (port : Port) (pads : Table Nat Pad) : Table Nat Pad :=
  pads.map fun _ p => if p.port = some port then p.setPort none else p

/-- Binds the pad in a slot to a port; the pad that held the port loses it. The wish is kept for an
empty slot, until a device arrives there. -/
def bindPort (r : Router) (slot : Nat) (port : Port) : Outcome Router Unit :=
  let pads := vacate port r.pads
  { state := { r with
      pads := pads.modify slot fun p => p.setPort (some port)
      reservations := r.reservations.claim port slot }
    result := ()
    trace := .ofNotices [
      match pads.get? slot with
      | some p => .padBound slot port p.name
      | none => .portReserved slot port] }

/-- Leaves a port without a pad, and wanted by none. -/
def unbindPort (r : Router) (port : Port) : Router :=
  { r with pads := vacate port r.pads, reservations := r.reservations.set port none }

/-! ### Making a router -/

/-- The router of a configuration, with a given register. The configuration is taken as it is. -/
def start (c : Config) (register : Register) : Outcome Router Unit :=
  Outcome.forEach
    (fun r port =>
      match c.slotOn port with
      | some slot => r.bindPort slot port
      | none => ⟨r, (), {}⟩)
    { pads := builtinPads
      slotLimit := max c.slotLimit.toNat builtinSlots
      keyMaps := c.keyMaps
      register := register
      disconnectKeys := c.disconnectKeys
      releaseMouseByShaking := c.releaseMouseByShaking }
    Port.all

/-- The router with the default configuration and the shipped register. -/
def default : Router := (start {} .shipped).state

/-! ### Devices -/

/-- Binds the ports that wait for a slot. -/
def applyReservations (r : Router) (slot : Nat) : Outcome Router Unit :=
  Outcome.forEach
    (fun r port => if r.reservations.get port = some slot then r.bindPort slot port else ⟨r, (), {}⟩)
    r Port.all

/-- Puts the pad of a device into a slot. -/
def seat (r : Router) (slot : Nat) (device : Device) : Outcome Router Unit :=
  let made := Pad.ofDevice r.register device
  let pad := made.state
  let notices := .deviceConnected slot pad.name pad.kind pad.known ::
    if !pad.known && !pad.isMouse then [.notSupported slot] else []
  (applyReservations { r with pads := r.pads.insert slot pad } slot).after
    (made.trace ++ .ofNotices notices)

/-- A device was attached. The result is its slot; there is none for a device of the host machine,
for one that is there already, and when all slots are taken. -/
def arrive (r : Router) (device : Device) : Outcome Router (Option Nat) :=
  if device.isInternal then ⟨r, none, .ofNotices [.internalIgnored device]⟩
  else if (r.slotOf? device.locationId).isSome then ⟨r, none, .ofNotices [.alreadyRegistered device]⟩
  else r.findFreeSlot.andThen fun r free =>
    match free with
    | some slot => (r.seat slot device).mapResult fun _ => some slot
    | none => ⟨r, none, {}⟩

/-- The device at a location was detached. The result is the slots that have become free. -/
def remove (r : Router) (location : String) : Outcome Router (List Nat) :=
  let leaving := r.pads.filter fun _ p => p.location? == some location
  { state := { r with pads := r.pads.filter fun _ p => p.location? != some location }
    result := leaving.keys
    trace := .ofNotices (leaving.entries.map fun e => .deviceDisconnected e.1 e.2.name) }

/-! ### Inputs -/

/-- Publishes what a pad has sent, if it is asked to. -/
def publish (r : Router) (slot : Nat) (p : Pad) (actions : List Action) : Trace :=
  if p.notify && !actions.isEmpty then .ofDeliveries (r.bus.emit ⟨slot, p.kind, p.port, actions⟩)
  else {}

/-- A reading of the device at a location. The result is what was decoded. -/
def processHid (r : Router) (location : String) (reading : Reading) :
    Outcome Router (List Action) :=
  match r.slotOf? location with
  | none => ⟨r, [], .ofNotices [.readingDropped location]⟩
  | some slot =>
    r.onPad slot [] fun p =>
      (p.handleReading reading).andThen fun p actions => ⟨p, actions, r.publish slot p actions⟩

/-- Offers a key event to the pads on some ports, one after the other. If keys are kept from the
emulated keyboard, the first pad that binds the key has it to itself and the result is `true`. -/
def offerKey (event : KeyMaps → Key → Pad → Outcome Pad Bool) (key : Key) (r : Router) :
    List Port → Outcome Router Bool
  | [] => ⟨r, false, {}⟩
  | port :: rest =>
    match r.slotOn port with
    | none => offerKey event key r rest
    | some slot =>
      (r.onPad slot false (event r.keyMaps key)).andThen fun r bound =>
        if bound && r.disconnectKeys then ⟨r, true, {}⟩ else offerKey event key r rest

/-- A key goes down. The result says whether it has to be kept from the emulated keyboard. -/
def keyDown (r : Router) (key : Key) : Outcome Router Bool := offerKey Pad.keyDown key.plain r Port.all

/-- A key goes up. The result says whether it has to be kept from the emulated keyboard. -/
def keyUp (r : Router) (key : Key) : Outcome Router Bool := offerKey Pad.keyUp key.plain r Port.all

/-- Runs an operation on the pad in a slot if it is a mouse. -/
def onMouse (r : Router) (slot : Nat) (f : Pad → Outcome Pad Bool) : Outcome Router Bool :=
  r.onPad slot false fun p => if p.isMouse then f p else ⟨p, false, {}⟩

/-- A relative movement of the mouse in a slot. The result is whether a shake was recognized;
`answer` is what the shake detector says if it is asked. -/
def mouseMoved (r : Router) (slot : Nat) (dx dy : Float) (answer : Bool) : Outcome Router Bool :=
  r.onMouse slot fun p => p.moveMouse dx dy r.releaseMouseByShaking answer

/-- Button actions of the mouse in a slot. The result says whether there were any. -/
def mouseButtons (r : Router) (slot : Nat) (actions : List Action) : Outcome Router Bool :=
  r.onMouse slot fun p => p.forward .mouse actions

/-- One event from a source of HID events. -/
def handle (r : Router) : HidEvent → Outcome Router Unit
  | .arrived device => (r.arrive device).mapResult fun _ => ()
  | .removed location => (r.remove location).mapResult fun _ => ()
  | .value location reading => (r.processHid location reading).mapResult fun _ => ()

/-- Events one after the other. -/
def handleAll (r : Router) (events : List HidEvent) : Outcome Router Unit :=
  Outcome.forEach handle r events

/-! ### Settings -/

/-- Changes the binding table of the pad in a slot. The result is `false` if it has none. -/
def editKeys (r : Router) (slot : Nat) (f : KeyMap → KeyMap) : Router × Bool :=
  match (r.pad? slot).bind Pad.keyMap with
  | some id => ({ r with keyMaps := r.keyMaps.set id (f (r.keyMaps.get id)) }, true)
  | none => (r, false)

/-- Binds a key, without its modifiers, in the table of the pad in a slot. -/
def bindKey (r : Router) (slot : Nat) (key : Key) (action : Bindable) : Router × Bool :=
  r.editKeys slot fun m => m.bind key.plain action

/-- Takes an action from its key in the table of the pad in a slot. -/
def unbindKey (r : Router) (slot : Nat) (action : Bindable) : Router × Bool :=
  r.editKeys slot fun m => m.unbind action

/-- Takes the schemes and the display data of all attached devices from the register again. The
result is how many schemes have changed. -/
def refreshSchemes (r : Router) : Outcome Router Nat :=
  let resolved := r.pads.map fun _ p => p.resolve r.register
  { state := { r with pads := resolved.map fun _ o => o.state }
    result := resolved.values.countP Outcome.result
    trace := .ofNotices (resolved.values.flatMap fun o => o.trace.notices) }

/-- Switches the publishing of the activity of the pad in a slot on or off. -/
def setNotify (r : Router) (slot : Nat) (on : Bool) : Router :=
  { r with pads := r.pads.modify slot fun p => p.setNotify on }

/-- Decides whether keys are kept from the emulated keyboard. -/
def setDisconnectKeys (r : Router) (on : Bool) : Router := { r with disconnectKeys := on }

/-- Decides whether mouse movement is offered to the shake detector. -/
def setReleaseMouseByShaking (r : Router) (on : Bool) : Router :=
  { r with releaseMouseByShaking := on }

end Router

end PadRouter

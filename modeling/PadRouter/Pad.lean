import PadRouter.Element.ReadingDecoder
import PadRouter.Key.HeldKeys
import PadRouter.Outcome
import PadRouter.Register

/-!
# Pads

A pad is one input source: a key set, the host mouse or an attached device. It keeps the decoder
state of its source and sends actions to the port it is bound to. A pad without a port decodes all
the same, so that its state is right when it is bound again, but sends nothing.

* `Pad` — an input source, with `Pad.keyboard`, `Pad.mouse` and `Pad.ofDevice` to make one.
* `Pad.resolve` — takes scheme and display data from the register.
* `Pad.handleReading`, `Pad.keyDown`, `Pad.keyUp`, `Pad.moveMouse` — the inputs.
* `Pad.sendTo` — the calls by which actions reach a port.
-/

namespace PadRouter

/-- One input source. -/
structure Pad where
  kind : PadKind
  /-- The port the pad is bound to. -/
  port : Option Port := none
  /-- The name given to the pad or found in the register. -/
  givenName : Option String := none
  icon : Option String := none
  /-- The binding table whose keys drive the pad. -/
  keyMap : Option KeyMapId := none
  /-- The attached device behind the pad. -/
  device : Option Device := none
  /-- Whether the register lists the device as supported. -/
  known : Bool := false
  /-- Whether the pad's activity is published. -/
  notify : Bool := false
  decoder : ReadingDecoder := {}
  held : HeldKeys := {}
  deriving Inhabited

/-- The name of whatever has no name of its own. -/
def externalName : String := "External device"

namespace Pad

/-! ### Making pads -/

/-- A joystick driven by keys. -/
def keyboard (name : String) (keys : KeyMapId) : Pad :=
  { kind := .joystick, givenName := some name, keyMap := some keys }

/-- The host mouse. Its buttons may be driven by keys as well. -/
def mouse (name : String) (keys : Option KeyMapId) : Pad :=
  { kind := .mouse, givenName := some name, keyMap := keys }

/-- Gives a pad an icon. -/
def withIcon (p : Pad) (icon : String) : Pad := { p with icon := some icon }

/-- Takes scheme, name, icon and support from the register; a pad without a device is left alone.
The result says whether the scheme has changed. -/
def resolve (register : Register) (p : Pad) : Outcome Pad Bool :=
  match p.device with
  | none => ⟨p, false, {}⟩
  | some device =>
    let found := register.resolve device.vendorId device.productId
    let changed := found.scheme != p.decoder.scheme
    { state := { p with
        decoder := p.decoder.setScheme found.scheme
        givenName := found.name
        icon := found.icon
        known := found.known }
      result := changed
      trace := .ofNotices (if changed then [.schemeUpdated device found.scheme] else []) }

/-- The pad of an attached device. A device of the mouse class makes a mouse. -/
def ofDevice (register : Register) (device : Device) : Outcome Pad Unit :=
  (resolve register
    { kind := if device.isMouse then .mouse else .joystick, device := some device }).mapResult
      fun _ => ()

/-! ### Data -/

/-- Whether the pad is a mouse. -/
def isMouse (p : Pad) : Bool := p.kind == .mouse

/-- The name to show: the given one, or else the device's product name. -/
def name (p : Pad) : String :=
  match p.givenName with
  | some name => name
  | none => (p.device.bind Device.product).getD externalName

/-- The location of the attached device. -/
def location? (p : Pad) : Option String := p.device.map Device.locationId

/-- The scheme in force. -/
def scheme (p : Pad) : Scheme := p.decoder.scheme

/-- Binds the pad to a port or to none. -/
def setPort (p : Pad) (port : Option Port) : Pad := { p with port := port }

/-- Switches the publishing of activity on or off. -/
def setNotify (p : Pad) (on : Bool) : Pad := { p with notify := on }

/-- Forgets the held keys and the history of the elements. -/
def reset (p : Pad) : Pad := { p with decoder := p.decoder.reset, held := {} }

/-! ### Sending actions -/

/-- The calls that carry actions to the joystick or the mouse on the pad's port, in order. -/
def sendTo (p : Pad) (kind : PadKind) (actions : List Action) : List PortCall :=
  match p.port with
  | some port => actions.map (kind.call port)
  | none => []

/-- Sends actions to a joystick or a mouse, whatever the pad is. The result says whether there were
any. -/
def forward (p : Pad) (kind : PadKind) (actions : List Action) : Outcome Pad Bool :=
  ⟨p, !actions.isEmpty, .ofCalls (p.sendTo kind actions)⟩

/-! ### Inputs -/

/-- Decodes a reading of the attached device and sends its actions to the joystick on the pad's
port. The result is what was decoded; readings of a mouse mean nothing. -/
def handleReading (p : Pad) (r : Reading) : Outcome Pad (List Action) :=
  match p.kind with
  | .mouse => ⟨p, [], {}⟩
  | .joystick =>
    let decoded := p.decoder.decode Axis.classify r
    let actions := decoded.2.getD []
    { state := { p with decoder := decoded.1 }
      result := actions
      trace := { calls := p.sendTo .joystick actions, notices := p.decoder.notices r } }

/-- What a key event leaves behind: the held keys, and the action to be sent if the key is bound. -/
def afterKey (p : Pad) (decoded : HeldKeys × Option Action) (notice : List Action → Notice) :
    Outcome Pad Bool :=
  match decoded.2 with
  | none => ⟨p, false, {}⟩
  | some action =>
    { state := { p with held := decoded.1 }
      result := true
      trace := { calls := p.sendTo p.kind [action], notices := [notice [action]] } }

/-- A key goes down. The result says whether the pad's table binds it. -/
def keyDown (maps : KeyMaps) (key : Key) (p : Pad) : Outcome Pad Bool :=
  match p.keyMap with
  | none => ⟨p, false, {}⟩
  | some id => p.afterKey (p.held.keyDown (maps.get id) key) (.keyDown key)

/-- A key goes up. The result says whether the pad's table binds it. -/
def keyUp (maps : KeyMaps) (key : Key) (p : Pad) : Outcome Pad Bool :=
  match p.keyMap with
  | none => ⟨p, false, {}⟩
  | some id => p.afterKey (p.held.keyUp (maps.get id) key) (.keyUp key)

/-- A relative movement of the mouse. If `detect` is set the shake detector of the mouse on port 1,
whichever port the pad is bound to, is asked first; `answer` is what it says. The result is whether
a shake was recognized. -/
def moveMouse (p : Pad) (dx dy : Float) (detect answer : Bool) : Outcome Pad Bool :=
  { state := p
    result := detect && answer
    trace := {
      calls := (if detect then [.shake .one dx dy] else []) ++
        match p.port with
        | some port => [.delta port dx dy]
        | none => []
      notices := if detect && answer then [.shakeDetected] else [] } }

end Pad

end PadRouter

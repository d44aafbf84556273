import PadRouter.Router.EventQueue
import PadRouter.Json.Printer
import PadRouter.Router.Snapshot
import PadRouter.Text.Decimal

/-!
# A demonstration on the console

* `Console.line?` — what the console shows of a call on the ports.
* `Demonstration.run` — a queue of events plugs a joystick in, plays with it and takes it out again.
-/

namespace PadRouter

namespace Console

/-- The line for a call on the ports. The console recognizes no shaking and says nothing about it. -/
def line? : PortCall → Option String
  | .joystick _ action => some ("joystick <- " ++ action.label)
  | .mouse _ action => some ("mouse <- " ++ action.label)
  | .delta _ dx dy =>
    some ("mouse moved (" ++ Decimal.render dx ++ ", " ++ Decimal.render dy ++ ")")
  | .shake .. => none

/-- What the shake detector of the console says. -/
def recognizesShake (_dx _dy : Float) : Bool := false

/-- The lines for calls on the ports. -/
def lines (calls : List PortCall) : List String := calls.filterMap line?

end Console

namespace Demonstration

/-- The joystick of the demonstration. -/
def joystick : Device :=
  { vendorId := "1035", productId := "25907", locationId := "virtual:0"
    product := some "Competition Pro USB", transport := some "USB"
    usagePage := some Page.desktop, usage := some Usage.gamepad }

/-- What is done with the joystick before it is taken out. -/
def events : List HidEvent :=
  [.value joystick.locationId (.desktop Usage.x 255 0 255),
    .value joystick.locationId (.desktop Usage.x 128 0 255),
    .value joystick.locationId (.button 1 true),
    .value joystick.locationId (.button 1 false),
    .value joystick.locationId (.hat 2),
    .value joystick.locationId (.hat 8),
    .removed joystick.locationId]

/-- The slot that the joystick gets. -/
def slot : Nat := 3

/-- Lets the activity of the joystick be written down. -/
def listen (r : Router) : Router :=
  { r with bus := r.bus.subscribe { filter := .all, slot := some slot, sink := .logger } }.setNotify
    slot true

/-- The whole demonstration: the joystick arrives, is bound to port 2, is played with and leaves. -/
def play : Outcome Router Unit :=
  (Router.default.handle (.arrived joystick)).andThen fun r _ =>
    (r.bindPort slot .two).andThen fun r _ =>
      let r := listen r
      (r.handleAll events).after r.listDevices

/-- What the demonstration prints, line by line; the last is the text of the slots at the end. -/
def printed : List String :=
  Console.lines play.trace.calls ++ [Json.renderPretty play.state.snapshot.toTree]

/-- What the demonstration has to tell. -/
def notices : List Notice := play.trace.notices

end Demonstration

end PadRouter

import PadRouter.Text.Hex

/-!
# Usage pages and usages

An element of a HID device is named by a usage page and a usage on that page.

* `Page`, `Usage` — the numbers that mean something to this library.
* `Usage.accepted` — the device classes that count as game input.
* `Usage.name` — a readable name of an element, for notices.
-/

namespace PadRouter

namespace Page

/-- The Generic Desktop page. -/
def desktop : UInt16 := 0x01

/-- The Simulation Controls page. -/
def simulation : UInt16 := 0x02

/-- The Button page; usage 1 is the first button. -/
def button : UInt16 := 0x09

end Page

namespace Usage

/-! ### Device classes on the Generic Desktop page -/

def mouse : UInt16 := 0x02
def joystick : UInt16 := 0x04
def gamepad : UInt16 := 0x05
def multiAxis : UInt16 := 0x08

/-- The device classes that count as game input. -/
def accepted : List UInt16 := [joystick, gamepad, multiAxis, mouse]

/-! ### Elements on the Generic Desktop page -/

def x : UInt16 := 0x30
def y : UInt16 := 0x31
def z : UInt16 := 0x32
def rx : UInt16 := 0x33
def ry : UInt16 := 0x34
def rz : UInt16 := 0x35
def slider : UInt16 := 0x36
def dial : UInt16 := 0x37
def wheel : UInt16 := 0x38
def hatSwitch : UInt16 := 0x39

/-- Directional pad elements that some adapters report. -/
def padUp : UInt16 := 0x90
def padDown : UInt16 := 0x91
def padRight : UInt16 := 0x92
def padLeft : UInt16 := 0x93

/-- The names of the elements on the Generic Desktop page. -/
def desktopNames : List (UInt16 × String) :=
  [(x, "X"), (y, "Y"), (z, "Z"), (rx, "Rx"), (ry, "Ry"), (rz, "Rz"), (slider, "Slider"),
    (dial, "Dial"), (wheel, "Wheel"), (hatSwitch, "Hat"), (padUp, "DPadUp"),
    (padDown, "DPadDown"), (padRight, "DPadRight"), (padLeft, "DPadLeft")]

/-- A readable name of an element. -/
def name (page usage : UInt16) : String :=
  if page = Page.desktop then
    (desktopNames.lookup usage).getD ("GD_0x" ++ Text.hex 2 usage.toNat)
  else if page = Page.button then "Button" ++ toString usage.toNat
  else if page = Page.simulation then "Sim"
  else if 0xFF00 ≤ page then "Vendor"
  else "UP_" ++ Text.hex 4 page.toNat ++ "_U_" ++ Text.hex 4 usage.toNat

end Usage

end PadRouter

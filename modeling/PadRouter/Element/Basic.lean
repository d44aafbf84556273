import PadRouter.Device

/-!
# Elements and readings

* `Element` — one input of a device, named by its usage page and usage.
* `Reading` — a value that an element reports, with the range its descriptor declares.
* `HidEvent` — what a source of HID events hands out.
-/

namespace PadRouter

/-- One input of a device. -/
structure Element where
  page : UInt16
  usage : UInt16
  deriving DecidableEq, Repr, Inhabited

namespace Element

/-- Elements are ordered by page, then by usage. -/
instance : Ord Element := ⟨compareLex (compareOn page) (compareOn usage)⟩

theorem compare_eq (a b : Element) :
    compare a b = (compare a.page b.page).then (compare a.usage b.usage) := rfl

instance : Std.TransOrd Element :=
  inferInstanceAs (Std.TransCmp (compareLex (compareOn page) (compareOn usage)))

instance : Std.LawfulEqOrd Element where
  eq_of_compare {a b} h := by
    obtain ⟨hp, hu⟩ := Ordering.then_eq_eq.mp (compare_eq a b ▸ h)
    cases a
    cases b
    simp_all

/-- The element's readable name. -/
def name (e : Element) : String := Usage.name e.page e.usage

end Element

/-- A value that an element reports. -/
structure Reading where
  element : Element
  value : Int
  /-- The least value that the descriptor declares. -/
  min : Int
  /-- The greatest value that the descriptor declares. -/
  max : Int
  deriving DecidableEq, Repr, Inhabited

namespace Reading

/-- A reading of a button: `1` while it is down. -/
def button (usage : UInt16) (pressed : Bool) : Reading :=
  ⟨⟨Page.button, usage⟩, if pressed then 1 else 0, 0, 1⟩

/-- A reading of an element on the Generic Desktop page. -/
def desktop (usage : UInt16) (value min max : Int) : Reading :=
  ⟨⟨Page.desktop, usage⟩, value, min, max⟩

/-- A reading of a hat switch with eight positions. -/
def hat (position : Int) : Reading := desktop Usage.hatSwitch position 0 7

end Reading

/-- What a source of HID events hands out. -/
inductive HidEvent
  /-- A device was attached. -/
  | arrived (device : Device)
  /-- The device at a location was detached. -/
  | removed (location : String)
  /-- An element of the device at a location changed. -/
  | value (location : String) (reading : Reading)
  deriving DecidableEq, Repr

/-- The location of the device that an event belongs to. -/
def HidEvent.location : HidEvent → String
  | arrived device => device.locationId
  | removed location => location
  | value location _ => location

end PadRouter

import PadRouter.Action

/-!
# Control ports

The emulated machine has two control ports, and each can host a joystick or a mouse.

* `Port` — one of the two ports; `Port.ofNumber?` refuses any other number.
* `PadKind` — what a pad emulates.
* `PortCall` — one message to the devices behind the ports.
-/

namespace PadRouter

/-- One of the two control ports. -/
inductive Port
  | one
  | two
  deriving DecidableEq, Repr, Inhabited

/-- No control port has this number. -/
structure PortError where
  number : Nat
  deriving DecidableEq, Repr

/-- The wording of the error. -/
def PortError.message (e : PortError) : String := "no control port " ++ toString e.number

namespace Port

/-- Both ports, in order. -/
def all : List Port := [one, two]

/-- The number printed on the case. -/
def number : Port → Nat
  | one => 1
  | two => 2

/-- The port with a number. -/
def ofNumber? (n : Nat) : Except PortError Port :=
  match n with
  | 1 => .ok one
  | 2 => .ok two
  | n => .error ⟨n⟩

/-- The other port. -/
def other : Port → Port
  | one => two
  | two => one

/-- The port as it is shown. -/
def display (p : Port) : String := "port " ++ toString p.number

@[simp]
theorem other_other (p : Port) : p.other.other = p := by cases p <;> rfl

theorem ofNumber?_number (p : Port) : ofNumber? p.number = .ok p := by cases p <;> rfl

end Port

/-- What a pad emulates on its port. -/
inductive PadKind
  | mouse
  | joystick
  deriving DecidableEq, Repr, Inhabited

namespace PadKind

/-- Both kinds. -/
def all : List PadKind := [mouse, joystick]

/-- The name of a kind in files. -/
def name : PadKind → String
  | mouse => "mouse"
  | joystick => "joystick"

/-- The name of a kind in notices. -/
def label : PadKind → String
  | mouse => "Mouse"
  | joystick => "Joystick"

/-- The kind with a name. -/
def ofName? (s : String) : Option PadKind := all.find? fun k => k.name == s

theorem ofName?_name (k : PadKind) : ofName? k.name = some k := by cases k <;> decide +kernel

end PadKind

/-- A message to the joystick or the mouse on a port. -/
inductive PortCall
  /-- An action for the joystick. -/
  | joystick (port : Port) (action : Action)
  /-- A button action for the mouse. -/
  | mouse (port : Port) (action : Action)
  /-- A relative movement of the mouse. -/
  | delta (port : Port) (dx dy : Float)
  /-- A movement offered to the shake detector of the mouse. -/
  | shake (port : Port) (dx dy : Float)

/-- The message that carries `action` to the device of a kind on a port. -/
def PadKind.call (kind : PadKind) (port : Port) (action : Action) : PortCall :=
  match kind with
  | .joystick => .joystick port action
  | .mouse => .mouse port action

end PadRouter

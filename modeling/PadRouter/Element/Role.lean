import PadRouter.Action
import PadRouter.Element.Axis
import PadRouter.Element.Basic
import PadRouter.Scheme

/-!
# What an element means under a scheme

A mapping scheme gives every element one role, and the role turns a value into actions.

* `Direction` — the axis of the emulated stick that an analog axis moves.
* `Role` — the role of an element; `Scheme.role` finds it.
* `Hat.actions` — the actions of a hat switch position.
* `Scheme.translate` — the actions of one reading, without any history.
-/

namespace PadRouter

/-- How an analog axis moves the emulated stick. -/
inductive Direction
  | horizontal
  | vertical
  | verticalReversed
  deriving DecidableEq, Repr, Inhabited

namespace Direction

/-- The action of a horizontal deflection. -/
def acrossAction : Axis.State → Action
  | .negative => .pullLeft
  | .neutral => .releaseX
  | .positive => .pullRight

/-- The action of a vertical deflection. -/
def alongAction : Axis.State → Action
  | .negative => .pullUp
  | .neutral => .releaseY
  | .positive => .pullDown

/-- The action of a deflection. -/
def action : Direction → Axis.State → Action
  | horizontal, s => acrossAction s
  | vertical, s => alongAction s
  | verticalReversed, s => alongAction s.reversed

end Direction

/-- What an element of a device is good for. -/
inductive Role
  /-- An axis of one of the sticks. -/
  | stick (direction : Direction)
  /-- A button of the directional pad. -/
  | pull (direction : Pull)
  /-- Any other button. -/
  | fire
  /-- The hat switch. -/
  | hat
  /-- A Generic Desktop element without a use. -/
  | unmapped
  /-- An element of a page without a use. -/
  | foreign
  deriving DecidableEq, Repr, Inhabited

/-! ### Roles by selector -/

/-- The element moved by the primary stick. -/
def LeftStick.direction? (l : LeftStick) (usage : UInt16) : Option Direction :=
  match l with
  | .a0a1 =>
    if usage = Usage.x then some .horizontal
    else if usage = Usage.y then some .vertical
    else none
  | .a0a1r =>
    if usage = Usage.x then some .horizontal
    else if usage = Usage.y then some .verticalReversed
    else none
  | .a3a4 =>
    if usage = Usage.rx then some .horizontal
    else if usage = Usage.ry then some .vertical
    else none

/-- The element moved by the secondary stick. -/
def RightStick.direction? (r : RightStick) (usage : UInt16) : Option Direction :=
  match r with
  | .a2a5 =>
    if usage = Usage.z then some .horizontal
    else if usage = Usage.rz then some .vertical
    else none
  | .a2a3 =>
    if usage = Usage.z then some .horizontal
    else if usage = Usage.rx then some .verticalReversed
    else none
  | .a3a4 => none
  | .a2a5r =>
    if usage = Usage.z then some .horizontal
    else if usage = Usage.rz then some .verticalReversed
    else none

/-- The direction of a button that belongs to the directional pad. -/
def Hat.button? (h : Hat) (usage : UInt16) : Option Pull :=
  match h with
  | .b4b7 => [(5, .up), (6, .right), (7, .down), (8, .left)].lookup usage
  | .b11b14 => [(12, .up), (13, .down), (14, .left), (15, .right)].lookup usage
  | _ => none

/-- The direction of a Generic Desktop element that belongs to the directional pad. -/
def Hat.element? (h : Hat) (usage : UInt16) : Option Pull :=
  match h with
  | .u90u93 =>
    [(Usage.padUp, .up), (Usage.padDown, .down), (Usage.padRight, .right),
      (Usage.padLeft, .left)].lookup usage
  | _ => none

/-- The role of an element. Where both sticks claim one, the primary stick has it. -/
def Scheme.role (s : Scheme) (e : Element) : Role :=
  if e.page = Page.button then
    match s.hat.button? e.usage with
    | some p => .pull p
    | none => .fire
  else if e.page = Page.desktop then
    match s.left.direction? e.usage, s.right.direction? e.usage, s.hat.element? e.usage with
    | some d, _, _ => .stick d
    | none, some d, _ => .stick d
    | none, none, some p => .pull p
    | none, none, none => if e.usage = Usage.hatSwitch then .hat else .unmapped
  else .foreign

/-! ### Actions -/

/-- The actions of a hat switch position. Positions count clockwise from up, from 0 or, under every
encoding but one, from 1; any other value is the centre. -/
def Hat.actions (h : Hat) (raw : Int) : List Action :=
  match raw - (if h = .h0h7 then 0 else 1) with
  | 0 => [.pullUp, .releaseX]
  | 1 => [.pullUp, .pullRight]
  | 2 => [.pullRight, .releaseY]
  | 3 => [.pullRight, .pullDown]
  | 4 => [.pullDown, .releaseX]
  | 5 => [.pullDown, .pullLeft]
  | 6 => [.pullLeft, .releaseY]
  | 7 => [.pullLeft, .pullUp]
  | _ => [.releaseXY]

/-- The actions of a reading in a role; `none` where nothing is to be sent. -/
def Role.actions? (rule : Axis.Rule) (hat : Hat) (role : Role) (r : Reading) :
    Option (List Action) :=
  match role with
  | stick d => (rule r.value r.min r.max).map fun s => [d.action s]
  | pull p => some [if r.value = 0 then p.release else p.press]
  | fire => some [if r.value = 0 then .releaseFire else .pressFire]
  | .hat => some (hat.actions r.value)
  | unmapped | foreign => none

/-- The actions of one reading under a scheme, whatever was reported before. -/
def Scheme.translate (rule : Axis.Rule) (s : Scheme) (r : Reading) : Option (List Action) :=
  (s.role r.element).actions? rule s.hat r

end PadRouter

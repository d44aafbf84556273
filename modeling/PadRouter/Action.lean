/-!
# Actions

Every input source is reduced to a small closed set of actions before it reaches a control port.

* `Action` — the thirteen actions, numbered `0` to `12` by `Action.raw`.
* `Bindable` — the seven actions a key can be bound to; releases come from decoders only.
* `Pull` — the four directions of a stick, with the actions that pull and release them.
-/

namespace PadRouter

/-- What an emulated joystick or mouse understands. -/
inductive Action
  | pullUp
  | pullDown
  | pullLeft
  | pullRight
  | pressFire
  | pressLeft
  | pressRight
  | releaseX
  | releaseY
  | releaseXY
  | releaseFire
  | releaseLeft
  | releaseRight
  deriving DecidableEq, Repr, Inhabited

/-- One of the two axes of a stick. -/
inductive StickAxis
  | x
  | y
  deriving DecidableEq, Repr, Inhabited

namespace Action

/-- All actions, in the order of their numbers. -/
def all : List Action :=
  [pullUp, pullDown, pullLeft, pullRight, pressFire, pressLeft, pressRight, releaseX, releaseY,
    releaseXY, releaseFire, releaseLeft, releaseRight]

/-- The number of an action. -/
def raw : Action → Nat
  | pullUp => 0
  | pullDown => 1
  | pullLeft => 2
  | pullRight => 3
  | pressFire => 4
  | pressLeft => 5
  | pressRight => 6
  | releaseX => 7
  | releaseY => 8
  | releaseXY => 9
  | releaseFire => 10
  | releaseLeft => 11
  | releaseRight => 12

/-- The name of an action in files. -/
def name : Action → String
  | pullUp => "PULL_UP"
  | pullDown => "PULL_DOWN"
  | pullLeft => "PULL_LEFT"
  | pullRight => "PULL_RIGHT"
  | pressFire => "PRESS_FIRE"
  | pressLeft => "PRESS_LEFT"
  | pressRight => "PRESS_RIGHT"
  | releaseX => "RELEASE_X"
  | releaseY => "RELEASE_Y"
  | releaseXY => "RELEASE_XY"
  | releaseFire => "RELEASE_FIRE"
  | releaseLeft => "RELEASE_LEFT"
  | releaseRight => "RELEASE_RIGHT"

/-- The name of an action in notices. -/
def label : Action → String
  | pullUp => "PullUp"
  | pullDown => "PullDown"
  | pullLeft => "PullLeft"
  | pullRight => "PullRight"
  | pressFire => "PressFire"
  | pressLeft => "PressLeft"
  | pressRight => "PressRight"
  | releaseX => "ReleaseX"
  | releaseY => "ReleaseY"
  | releaseXY => "ReleaseXY"
  | releaseFire => "ReleaseFire"
  | releaseLeft => "ReleaseLeft"
  | releaseRight => "ReleaseRight"

/-- The action with a number. -/
def ofRaw? (n : Nat) : Option Action := all.find? fun a => a.raw == n

/-- The action with a name. -/
def ofName? (s : String) : Option Action := all.find? fun a => a.name == s

/-- The axis that a pull deflects. -/
def pullAxis? : Action → Option StickAxis
  | pullUp | pullDown => some .y
  | pullLeft | pullRight => some .x
  | _ => none

/-- Whether the action lets something go. -/
def isRelease : Action → Bool
  | releaseX | releaseY | releaseXY | releaseFire | releaseLeft | releaseRight => true
  | _ => false

/-- A list of actions as it stands in notices. -/
def labels (actions : List Action) : String :=
  "[" ++ ", ".intercalate (actions.map label) ++ "]"

theorem mem_all (a : Action) : a ∈ all := by cases a <;> decide

theorem ofRaw?_raw (a : Action) : ofRaw? a.raw = some a := by cases a <;> rfl

theorem ofName?_name (a : Action) : ofName? a.name = some a := by cases a <;> decide +kernel

end Action

/-- The actions that a key can be bound to. -/
inductive Bindable
  | pullUp
  | pullDown
  | pullLeft
  | pullRight
  | pressFire
  | pressLeft
  | pressRight
  deriving DecidableEq, Repr, Inhabited

namespace Bindable

/-- All bindable actions, in the order of their numbers. -/
def all : List Bindable :=
  [pullUp, pullDown, pullLeft, pullRight, pressFire, pressLeft, pressRight]

/-- The action that a bound key sends when it goes down. -/
def press : Bindable → Action
  | pullUp => .pullUp
  | pullDown => .pullDown
  | pullLeft => .pullLeft
  | pullRight => .pullRight
  | pressFire => .pressFire
  | pressLeft => .pressLeft
  | pressRight => .pressRight

/-- The number of the action pressed. -/
def raw (b : Bindable) : Nat := b.press.raw

/-- The name of the action pressed. -/
def name (b : Bindable) : String := b.press.name

/-- The bindable action that presses `a`; releases have none. -/
def ofAction? : Action → Option Bindable
  | .pullUp => some pullUp
  | .pullDown => some pullDown
  | .pullLeft => some pullLeft
  | .pullRight => some pullRight
  | .pressFire => some pressFire
  | .pressLeft => some pressLeft
  | .pressRight => some pressRight
  | _ => none

/-- The bindable action with a number. -/
def ofRaw? (n : Nat) : Option Bindable := Action.ofRaw? n >>= ofAction?

/-- The bindable action with a name. -/
def ofName? (s : String) : Option Bindable := Action.ofName? s >>= ofAction?

theorem ofAction?_eq_some_iff {a : Action} {b : Bindable} : ofAction? a = some b ↔ b.press = a := by
  cases a <;> cases b <;> decide

theorem ofName?_name (b : Bindable) : ofName? b.name = some b := by
  simp only [ofName?, name, Action.ofName?_name, Option.bind_eq_bind, Option.bind_some]
  exact ofAction?_eq_some_iff.mpr rfl

end Bindable

/-- The directions of a stick. -/
inductive Pull
  | up
  | down
  | left
  | right
  deriving DecidableEq, Repr, Inhabited

namespace Pull

/-- The action that deflects the stick. -/
def press : Pull → Action
  | up => .pullUp
  | down => .pullDown
  | left => .pullLeft
  | right => .pullRight

/-- The action that centres the axis of the direction. -/
def release : Pull → Action
  | up | down => .releaseY
  | left | right => .releaseX

/-- The direction against this one. -/
def opposite : Pull → Pull
  | up => down
  | down => up
  | left => right
  | right => left

end Pull

end PadRouter

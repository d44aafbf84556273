import PadRouter.Key.KeyMap

/-!
# Keys that drive a stick

Keys bound to directions are latched: letting go of one direction while the opposite key is still
down pulls the stick over instead of centring it. Fire and the mouse buttons are plain edges.

* `HeldKeys` — the direction keys that are down.
* `HeldKeys.press`, `HeldKeys.release` — one action per event of a bound key.
* `HeldKeys.keyDown`, `HeldKeys.keyUp` — the same through a binding table.
-/

namespace PadRouter

/-- The direction keys that are down. -/
structure HeldKeys where
  up : Bool := false
  down : Bool := false
  left : Bool := false
  right : Bool := false
  deriving DecidableEq, Repr, Inhabited

/-- The direction that an action pulls to. -/
def Bindable.pull? : Bindable → Option Pull
  | pullUp => some .up
  | pullDown => some .down
  | pullLeft => some .left
  | pullRight => some .right
  | pressFire | pressLeft | pressRight => none

/-- The action that lets the bound action go when nothing else is held. -/
def Bindable.letGo : Bindable → Action
  | pullUp | pullDown => .releaseY
  | pullLeft | pullRight => .releaseX
  | pressFire => .releaseFire
  | pressLeft => .releaseLeft
  | pressRight => .releaseRight

namespace HeldKeys

/-- Whether the key of a direction is down. -/
def get (h : HeldKeys) : Pull → Bool
  | .up => h.up
  | .down => h.down
  | .left => h.left
  | .right => h.right

/-- Notes whether the key of a direction is down. -/
def set (h : HeldKeys) (p : Pull) (on : Bool) : HeldKeys :=
  match p with
  | .up => { h with up := on }
  | .down => { h with down := on }
  | .left => { h with left := on }
  | .right => { h with right := on }

/-- A key bound to `b` goes down. -/
def press (h : HeldKeys) (b : Bindable) : HeldKeys × Action :=
  (match b.pull? with
    | some p => h.set p true
    | none => h, b.press)

/-- A key bound to `b` goes up. The opposite direction takes over if its key is still down. -/
def release (h : HeldKeys) (b : Bindable) : HeldKeys × Action :=
  match b.pull? with
  | some p => (h.set p false, if h.get p.opposite then p.opposite.press else b.letGo)
  | none => (h, b.letGo)

/-- A key goes down; `none` when the table does not bind it. -/
def keyDown (h : HeldKeys) (m : KeyMap) (key : Key) : HeldKeys × Option Action :=
  match m.lookup key with
  | some b => ((h.press b).1, some (h.press b).2)
  | none => (h, none)

/-- A key goes up; `none` when the table does not bind it. -/
def keyUp (h : HeldKeys) (m : KeyMap) (key : Key) : HeldKeys × Option Action :=
  match m.lookup key with
  | some b => ((h.release b).1, some (h.release b).2)
  | none => (h, none)

theorem get_set (h : HeldKeys) (p q : Pull) (on : Bool) :
    (h.set p on).get q = if q = p then on else h.get q := by
  cases p <;> cases q <;> rfl

end HeldKeys

end PadRouter

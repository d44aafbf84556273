import PadRouter.Pad

/-!
# Commands to a pad

All that can be asked of a pad, as data, and what no command changes.

* `Pad.Command`, `Pad.perform` — the commands and what they do.
* `Pad.SameSource` — two pads stand for one input source: kind, key map and device agree, and
  without a device so do name and icon.
* `Pad.Undisturbed` — in addition the pads are bound to the same port.
* `Pad.perform_undisturbed` — no command disturbs a pad.
-/

namespace PadRouter

/-- What a caller gets back. -/
inductive Response
  | done
  | flag (answer : Bool)
  | count (n : Nat)
  | slot (slot : Option Nat)
  | slots (slots : List Nat)
  | actions (actions : List Action)
  deriving DecidableEq, Repr

namespace Pad

/-- What can be asked of a pad. -/
inductive Command
  | resolve (register : Register)
  | handleReading (reading : Reading)
  | keyDown (maps : KeyMaps) (key : Key)
  | keyUp (maps : KeyMaps) (key : Key)
  | forward (kind : PadKind) (actions : List Action)
  | moveMouse (dx dy : Float) (detect answer : Bool)
  | setNotify (on : Bool)
  | reset

/-- What a pad does when it is asked. -/
def perform (p : Pad) : Command → Outcome Pad Response
  | .resolve register => (p.resolve register).mapResult .flag
  | .handleReading reading => (p.handleReading reading).mapResult .actions
  | .keyDown maps key => (p.keyDown maps key).mapResult .flag
  | .keyUp maps key => (p.keyUp maps key).mapResult .flag
  | .forward kind actions => (p.forward kind actions).mapResult .flag
  | .moveMouse dx dy detect answer => (p.moveMouse dx dy detect answer).mapResult .flag
  | .setNotify on => ⟨p.setNotify on, .done, {}⟩
  | .reset => ⟨p.reset, .done, {}⟩

/-! ### What stays -/

/-- Two pads stand for one input source. Name and icon of an attached device come from the register
and may differ. -/
structure SameSource (p q : Pad) : Prop where
  kind : q.kind = p.kind
  keyMap : q.keyMap = p.keyMap
  device : q.device = p.device
  label : p.device = none → q.givenName = p.givenName ∧ q.icon = p.icon

/-- Two pads stand for one input source and are bound to the same port. -/
structure Undisturbed (p q : Pad) : Prop extends SameSource p q where
  port : q.port = p.port

theorem SameSource.refl (p : Pad) : p.SameSource p := ⟨rfl, rfl, rfl, fun _ => ⟨rfl, rfl⟩⟩

theorem SameSource.trans {p q s : Pad} (h₁ : p.SameSource q) (h₂ : q.SameSource s) :
    p.SameSource s where
  kind := h₂.kind.trans h₁.kind
  keyMap := h₂.keyMap.trans h₁.keyMap
  device := h₂.device.trans h₁.device
  label hp := by
    obtain ⟨hname, hicon⟩ := h₁.label hp
    obtain ⟨hname', hicon'⟩ := h₂.label (h₁.device.trans hp)
    exact ⟨hname'.trans hname, hicon'.trans hicon⟩

theorem SameSource.location? {p q : Pad} (h : p.SameSource q) : q.location? = p.location? := by
  rw [Pad.location?, h.device, Pad.location?]

theorem Undisturbed.refl (p : Pad) : p.Undisturbed p := ⟨.refl p, rfl⟩

theorem Undisturbed.trans {p q s : Pad} (h₁ : p.Undisturbed q) (h₂ : q.Undisturbed s) :
    p.Undisturbed s :=
  ⟨h₁.toSameSource.trans h₂.toSameSource, h₂.port.trans h₁.port⟩

theorem sameSource_setPort (p : Pad) (port : Option Port) : p.SameSource (p.setPort port) :=
  ⟨rfl, rfl, rfl, fun _ => ⟨rfl, rfl⟩⟩

/-! ### No command disturbs a pad -/

theorem undisturbed_resolve (register : Register) (p : Pad) :
    p.Undisturbed (p.resolve register).state := by
  unfold resolve
  split
  · exact .refl p
  · -- name and icon are taken from the register, but only where there is a device
    next device hdevice =>
      exact ⟨⟨rfl, rfl, rfl, fun h => by simp [hdevice] at h⟩, rfl⟩

theorem undisturbed_handleReading (p : Pad) (r : Reading) :
    p.Undisturbed (p.handleReading r).state := by
  unfold handleReading
  split <;> exact ⟨⟨rfl, rfl, rfl, fun _ => ⟨rfl, rfl⟩⟩, rfl⟩

theorem undisturbed_afterKey (p : Pad) (decoded : HeldKeys × Option Action)
    (notice : List Action → Notice) : p.Undisturbed (p.afterKey decoded notice).state := by
  unfold afterKey
  split <;> exact ⟨⟨rfl, rfl, rfl, fun _ => ⟨rfl, rfl⟩⟩, rfl⟩

theorem undisturbed_keyDown (maps : KeyMaps) (key : Key) (p : Pad) :
    p.Undisturbed (p.keyDown maps key).state := by
  unfold keyDown
  split
  · exact .refl p
  · exact undisturbed_afterKey ..

theorem undisturbed_keyUp (maps : KeyMaps) (key : Key) (p : Pad) :
    p.Undisturbed (p.keyUp maps key).state := by
  unfold keyUp
  split
  · exact .refl p
  · exact undisturbed_afterKey ..

theorem undisturbed_setNotify (p : Pad) (on : Bool) : p.Undisturbed (p.setNotify on) :=
  ⟨⟨rfl, rfl, rfl, fun _ => ⟨rfl, rfl⟩⟩, rfl⟩

theorem perform_undisturbed (p : Pad) (cmd : Command) : p.Undisturbed (p.perform cmd).state := by
  cases cmd with
  | resolve register => exact undisturbed_resolve register p
  | handleReading reading => exact undisturbed_handleReading p reading
  | keyDown maps key => exact undisturbed_keyDown maps key p
  | keyUp maps key => exact undisturbed_keyUp maps key p
  | forward kind actions => exact .refl p
  | moveMouse dx dy detect answer => exact .refl p
  | setNotify on => exact undisturbed_setNotify p on
  | reset => exact ⟨⟨rfl, rfl, rfl, fun _ => ⟨rfl, rfl⟩⟩, rfl⟩

end Pad

end PadRouter

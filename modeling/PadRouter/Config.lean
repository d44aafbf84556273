import PadRouter.Key.KeyMap
import PadRouter.Port

/-!
# Configuration

* `Config` — the settings of a router; every one has a default.
* `Config.check` — the settings that make no sense, the first of them reported.
-/

namespace PadRouter

/-- How many slots the built-in pads take. -/
def builtinSlots : Nat := 3

/-- The settings of a router. -/
structure Config where
  /-- How many slots there are, built-in pads included. -/
  slotLimit : UInt64 := 5
  /-- Whether a key that drives a pad is kept from the emulated keyboard. -/
  disconnectKeys : Bool := true
  /-- Whether mouse movement is offered to the shake detector. -/
  releaseMouseByShaking : Bool := true
  /-- A file with device records, put over the shipped ones. -/
  registerPath : Option String := none
  /-- The slot on port 1 at the start. -/
  port1 : Option UInt64 := none
  /-- The slot on port 2 at the start. -/
  port2 : Option UInt64 := none
  keyMaps : KeyMaps := {}
  deriving Inhabited

/-- What makes no sense in a configuration. -/
inductive ConfigFault
  /-- The slots do not even hold the built-in pads. -/
  | tooFewSlots (limit : Nat)
  /-- A port is given a slot beyond the limit. -/
  | beyondLimit (port : Port) (slot limit : Nat)
  /-- Both ports are given one slot. -/
  | sharedSlot
  deriving DecidableEq, Repr

/-- The wording of a fault. -/
def ConfigFault.message : ConfigFault → String
  | tooFewSlots limit =>
    "slot_limit " ++ toString limit ++ " is below the " ++ toString builtinSlots ++
      " built-in slots"
  | beyondLimit port slot limit =>
    port.display ++ " bound to slot " ++ toString slot ++ ", limit is " ++ toString limit
  | sharedSlot => "port1 and port2 name the same slot"

namespace Config

/-- The slot on a port at the start. -/
def slotOn (c : Config) : Port → Option Nat
  | .one => c.port1.map UInt64.toNat
  | .two => c.port2.map UInt64.toNat

/-- Refuses a port that is given a slot beyond the limit. -/
def checkPort (c : Config) (port : Port) : Except ConfigFault Unit :=
  match c.slotOn port with
  | some slot =>
    if c.slotLimit.toNat ≤ slot then .error (.beyondLimit port slot c.slotLimit.toNat) else .ok ()
  | none => .ok ()

/-- Refuses a configuration that makes no sense: the number of slots is looked at first, then the
slot of each port, then both together. -/
def check (c : Config) : Except ConfigFault Unit := do
  if c.slotLimit.toNat < builtinSlots then throw (.tooFewSlots c.slotLimit.toNat)
  c.checkPort .one
  c.checkPort .two
  if c.port1.isSome && c.port1 == c.port2 then throw .sharedSlot

end Config

end PadRouter

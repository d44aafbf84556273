import PadRouter.Router
import PadRouter.Tree.Stored

/-!
# Snapshots of the slots

* `SlotInfo` — what a menu shows of one occupied slot.
* `Snapshot` — the occupied slots at one moment, with `Router.snapshot` to take one.
* `Router.listDevices` — the same as notices.
-/

namespace PadRouter

/-- What a menu shows of an occupied slot. -/
structure SlotInfo where
  slot : Nat
  name : String
  icon : Option String
  kind : PadKind
  port : Option Port
  keyMap : Option KeyMapId
  vendorId : Option String
  productId : Option String
  locationId : Option String
  /-- Whether the pad is supported; only an attached device may fail to be. -/
  known : Bool
  deriving DecidableEq, Repr, Inhabited

/-- What a menu shows of a pad in a slot. -/
def Pad.info (slot : Nat) (p : Pad) : SlotInfo where
  slot := slot
  name := p.name
  icon := p.icon
  kind := p.kind
  port := p.port
  keyMap := p.keyMap
  vendorId := p.device.map Device.vendorId
  productId := p.device.map Device.productId
  locationId := p.device.map Device.locationId
  known := p.device.isNone || p.known

/-- The tree that stands for a slot. -/
def SlotInfo.toTree (i : SlotInfo) : Tree :=
  .record [("slot", .int i.slot), ("name", .text i.name), ("icon", Storable.toTree i.icon),
    ("kind", Storable.toTree i.kind), ("port", Storable.toTree i.port),
    ("key_map", Storable.toTree i.keyMap), ("vendor_id", Storable.toTree i.vendorId),
    ("product_id", Storable.toTree i.productId), ("location_id", Storable.toTree i.locationId),
    ("is_known", .bool i.known)]

/-- The occupied slots at one moment. -/
abbrev Snapshot := Table Nat SlotInfo

namespace Snapshot

/-- The slot whose pad is bound to a port. -/
def slotOn (s : Snapshot) (port : Port) : Option Nat :=
  (s.find? fun _ i => i.port == some port).map fun e => e.2.slot

/-- The tree that stands for a snapshot: a record whose names are the slots. -/
def toTree (s : Snapshot) : Tree := .record (s.entries.map fun e => (toString e.1, e.2.toTree))

end Snapshot

namespace Router

/-- The occupied slots at this moment. -/
def snapshot (r : Router) : Snapshot := r.pads.map Pad.info

/-- A notice for each occupied slot. -/
def listDevices (r : Router) : Trace :=
  .ofNotices (r.snapshot.values.map fun i => .inputDevice i.slot i.name i.port i.kind)

end Router

end PadRouter

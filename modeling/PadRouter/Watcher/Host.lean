import PadRouter.Report.DeviceFile
import PadRouter.Text.Utf8

/-!
# The host's HID layer

* `Bus`, `Listing` — an entry of the host's list of devices.
* `HostView` — the list, the device files and what cannot be opened.
* `Host` — such a view together with what the devices have sent and nobody has read.
* `Host.later` — what may happen to it between two polls.
* `HostError` — what can go wrong.
-/

namespace PadRouter

/-- How a device is attached to the host. -/
inductive Bus
  | usb
  | bluetooth
  | i2c
  | spi
  | unknown
  deriving DecidableEq, Repr, Inhabited

namespace Bus

/-- The name of the transport. -/
def transport : Bus → Option String
  | usb => some "USB"
  | bluetooth => some "Bluetooth"
  | i2c => some "I2C"
  | spi => some "SPI"
  | unknown => none

/-- Whether devices on the bus are part of the host. -/
def builtIn : Bus → Bool
  | i2c | spi => true
  | usb | bluetooth | unknown => false

end Bus

/-- An entry of the host's list of devices. -/
structure Listing where
  /-- The path of the device file; it need not be text. -/
  path : List UInt8
  vendor : UInt16
  product : UInt16
  usagePage : UInt16
  usage : UInt16
  bus : Bus
  productName : Option String := none
  manufacturer : Option String := none
  serialNumber : Option String := none
  deriving DecidableEq, Repr, Inhabited

namespace Listing

/-- The location of the device: its path as text. -/
def location (l : Listing) : String := Utf8.decodeLossy l.path

/-- Whether the device counts as game input. -/
def accepted (l : Listing) : Bool :=
  l.usagePage == Page.desktop && Usage.accepted.contains l.usage

/-- What is known of the device. -/
def device (l : Listing) : Device where
  vendorId := toString l.vendor.toNat
  productId := toString l.product.toNat
  locationId := l.location
  product := l.productName
  manufacturer := l.manufacturer
  serialNumber := l.serialNumber
  transport := l.bus.transport
  builtIn := l.bus.builtIn
  usagePage := some l.usagePage
  usage := some l.usage

end Listing

/-- What comes of reading a device. -/
inductive Read
  | bytes (b : List UInt8)
  | failure
  deriving DecidableEq, Repr, Inhabited

/-- What can go wrong in the host's HID layer. -/
inductive HostError
  /-- It cannot be started. -/
  | init
  /-- The list of devices cannot be had. -/
  | refresh
  /-- A device cannot be opened. -/
  | opening
  /-- Reads of a device would wait. -/
  | blocking
  /-- A device cannot be read. -/
  | reading
  deriving DecidableEq, Repr, Inhabited

/-- The wording of the error. -/
def HostError.message (e : HostError) : String :=
  "HID API error: hidapi error: " ++
    match e with
    | init => "init"
    | refresh => "refresh"
    | opening => "open"
    | blocking => "blocking"
    | reading => "read"

/-- What the host's HID layer shows at one moment. -/
structure HostView where
  /-- Whether reports can be decoded on this host at all. -/
  decodes : Bool
  listed : List Listing := []
  /-- Whether the list of devices cannot be had at the moment. -/
  refreshFails : Bool := false
  /-- The device files, by location. -/
  files : Table String DeviceFile := {}
  /-- The paths that cannot be opened. -/
  refused : List (List UInt8) := []
  /-- The paths that can be opened but would wait. -/
  waiting : List (List UInt8) := []

/-- The host's HID layer: what it shows, and what waits to be read. -/
structure Host extends HostView where
  /-- What the devices have sent and nobody has read, by path. -/
  queues : Table (List UInt8) (List Read) := {}

instance : Inhabited Host := ⟨{ decodes := false }⟩

/-- An entry of the list of devices with all that is new about the device. -/
structure Presence where
  listing : Listing
  file : Option DeviceFile := none
  refused : Bool := false
  waiting : Bool := false
  reads : List Read := []

/-- What some devices have sent, by path. -/
abbrev Sent := List (List UInt8 × List Read)

namespace HostView

/-- Takes note of what is new about a device. -/
def note (v : HostView) (p : Presence) : HostView :=
  let path := p.listing.path
  { v with
    files := match p.file with
      | some f => v.files.insert p.listing.location f
      | none => v.files
    refused := if p.refused then path :: v.refused else v.refused
    waiting := if p.waiting then path :: v.waiting else v.waiting }

/-- The view with a new list of devices. -/
def present (v : HostView) (devices : List Presence) (refreshFails : Bool) : HostView :=
  { devices.foldl note v with
    listed := devices.map Presence.listing
    refreshFails := refreshFails }

/-- Opens a device for reads that do not wait. -/
def openDevice (v : HostView) (path : List UInt8) : Except HostError Unit :=
  if v.refused.contains path then .error .opening
  else if v.waiting.contains path then .error .blocking
  else .ok ()

end HostView

namespace Host

/-- What a device has sent and nobody has read. -/
def queue (h : Host) (path : List UInt8) : List Read := (h.queues.get? path).getD []

/-- Replaces what a device has sent. -/
def setQueue (h : Host) (path : List UInt8) (reads : List Read) : Host :=
  { h with queues := h.queues.insert path reads }

theorem queue_setQueue (h : Host) (path other : List UInt8) (reads : List Read) :
    (h.setQueue path reads).queue other = if other = path then reads else h.queue other := by
  simp only [queue, setQueue, Table.get?_insert, Std.LawfulEqCmp.compare_eq_iff_eq]
  split <;> rfl

/-- Puts what devices have sent behind what nobody has read yet. -/
def send (h : Host) (sent : Sent) : Host :=
  sent.foldl (fun h s => h.setQueue s.1 (h.queue s.1 ++ s.2)) h

/-- The host at a later moment: it shows something else, and the devices have sent more. -/
def later (h : Host) (view : HostView) (sent : Sent) : Host :=
  { h.send sent with toHostView := view }

/-- The host with a new list of devices. -/
def present (h : Host) (devices : List Presence) (refreshFails : Bool) : Host :=
  h.later (h.toHostView.present devices refreshFails)
    (devices.map fun p => (p.listing.path, p.reads))

end Host

end PadRouter

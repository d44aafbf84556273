import PadRouter.Outcome
import PadRouter.Watcher.Host

/-!
# Watching the host's devices

Each poll compares the host's list of devices with the one before and reads what the attached
devices have sent.

* `DeviceDecoder` — what makes readings of the reports of a device; `ReportDecoder` is one.
* `Watcher` — the attached devices, by location, with their readers.
* `Watcher.pollIn` — arrivals in the order of the list, then removals, then readings. The attached
  devices have no order of their own, and a `Traversal` says how they are gone through;
  `Watcher.poll` goes by location.
* `Reader.drain` — reads one device, at most `maxReports` times.
-/

namespace PadRouter

/-- What makes readings of the reports of a device. -/
class DeviceDecoder (δ : Type) where
  /-- The decoder for a device of the list, if its reports can be decoded, with its notices. -/
  make : HostView → Listing → Option δ × List Notice
  /-- Number of bytes in a report, the report identifier included. -/
  reportLength : δ → Nat
  /-- Whether each report begins with its identifier. -/
  expectsReportId : δ → Bool
  /-- Decodes the body of a report. -/
  decode : δ → (reportId : UInt8) → (body : List UInt8) → Decoded δ

/-- The decoder of a device file, on hosts that can decode reports. -/
instance : DeviceDecoder ReportDecoder where
  make v l :=
    if v.decodes then
      let opening := DeviceFile.open? l.location l.vendor l.product (v.files.get? l.location)
      (opening.decoder, opening.notices)
    else (none, [.noReportDecoder l.vendor l.product])
  reportLength d := d.reportLength.toNat
  expectsReportId := ReportDecoder.expectsReportId
  decode := ReportDecoder.decode

/-! ### Reading a device -/

/-- An open device with its decoder. -/
structure Reader (δ : Type) where
  path : List UInt8
  /-- Number of bytes in a report, as it was said when the device was opened. -/
  reportLength : Nat
  decoder : δ
  deriving Inhabited

/-- What comes of reading a device until it has no more to say. -/
structure Drained (δ : Type) where
  decoder : δ
  /-- What is left to be read. -/
  rest : List Read
  readings : List Reading := []
  notices : List Notice := []
  /-- Whether a read has failed. -/
  failed : Bool := false

/-- How many reports of a device are read in one poll, so that none keeps the others waiting. -/
def maxReports : Nat := 32

namespace Reader

variable {δ : Type} [DeviceDecoder δ]

/-- Number of bytes that are read for one report. -/
def room (rd : Reader δ) : Nat := max rd.reportLength 1

/-- Decodes what was read from a device; the result is `none` if nothing was read. -/
def decodeRead? (room : Nat) (d : δ) (bytes : List UInt8) : Option (Decoded δ) :=
  match bytes.take room with
  | [] => none
  | b :: rest =>
    some (if DeviceDecoder.expectsReportId d then DeviceDecoder.decode d b rest
      else DeviceDecoder.decode d 0 (b :: rest))

/-- Reads up to a number of reports. An empty read and a failed one come last; what was decoded
before stays. -/
def drain (room : Nat) : Nat → δ → List Read → Drained δ
  | 0, d, reads => { decoder := d, rest := reads }
  | _ + 1, d, [] => { decoder := d, rest := [] }
  | _ + 1, d, .failure :: rest => { decoder := d, rest := rest, failed := true }
  | n + 1, d, .bytes b :: rest =>
    match decodeRead? room d b with
    | none => { decoder := d, rest := rest }
    | some now =>
      let later := drain room n now.decoder rest
      { later with
        readings := now.readings ++ later.readings
        notices := now.notices ++ later.notices }

end Reader

/-- An attached device; one that cannot be read has no reader. -/
structure Attached (δ : Type) where
  device : Device
  reader : Option (Reader δ) := none
  deriving Inhabited

/-- The attached devices, by location. -/
structure Watcher (δ : Type) where
  attached : Table String (Attached δ) := {}

/-- A way to go through the attached devices. -/
structure Traversal where
  arrange : List String → List String
  /-- Each is visited once. -/
  perm : ∀ locations, (arrange locations).Perm locations

/-- Goes through the devices by location. -/
def Traversal.ascending : Traversal := ⟨id, fun _ => .refl _⟩

namespace Watcher

variable {δ : Type}

instance : Inhabited (Watcher δ) := ⟨{}⟩

/-- The name of the host's HID layer. -/
def name : String := "hidapi"

/-- The notices of starting to watch. -/
def startNotices : List Notice := [.hidReady]

/-! ### Arrivals -/

section Arrivals

variable [DeviceDecoder δ]

/-- The reader for a device whose reports can be decoded, with its notices. -/
def readerFor (v : HostView) (l : Listing) : Option (Reader δ) × List Notice :=
  match DeviceDecoder.make v l with
  | (none, notices) => (none, notices)
  | (some d, notices) =>
    match v.openDevice l.path with
    | .ok _ => (some ⟨l.path, DeviceDecoder.reportLength d, d⟩, notices)
    | .error e => (none, notices ++ [.deviceRefused l.vendor l.product e.message])

/-- Opens a device, with its notices. Mice are not read. -/
def openReader (v : HostView) (l : Listing) : Option (Reader δ) × List Notice :=
  if l.device.isMouse then (none, []) else readerFor v l

/-- Attaches a device of the list, unless one is attached at its location. -/
def attach (v : HostView) (w : Watcher δ) (l : Listing) : Outcome (Watcher δ) (List HidEvent) :=
  if w.attached.contains l.location then ⟨w, [], {}⟩
  else
    let opened := openReader v l
    { state := ⟨w.attached.insert l.location ⟨l.device, opened.1⟩⟩
      result := [.arrived l.device]
      trace := .ofNotices (opened.2 ++ [.deviceFound l.device opened.1.isSome]) }

end Arrivals

/-! ### Removals -/

/-- The locations of the devices in a list that count as game input. -/
def locations (listed : List Listing) : List String :=
  (listed.filter Listing.accepted).map Listing.location

/-- Lets go the devices that are not in a list any more. -/
def detach (t : Traversal) (listed : List Listing) (w : Watcher δ) : Watcher δ × List HidEvent :=
  let seen := locations listed
  let gone := w.attached.filter fun location _ => !seen.contains location
  (⟨w.attached.filter fun location _ => seen.contains location⟩,
    (t.arrange gone.keys).map .removed)

/-! ### Readings -/

section Readings

variable [DeviceDecoder δ]

/-- Reads the device at a location. A device whose read fails is not read any more. -/
def readAt (s : Watcher δ × Host) (location : String) :
    Outcome (Watcher δ × Host) (List HidEvent) :=
  match s.1.attached.get? location with
  | some ⟨device, some reader⟩ =>
    let drained := Reader.drain reader.room maxReports reader.decoder (s.2.queue reader.path)
    let next := if drained.failed then none else some { reader with decoder := drained.decoder }
    { state :=
        (⟨s.1.attached.insert location ⟨device, next⟩⟩, s.2.setQueue reader.path drained.rest)
      result := drained.readings.map (.value location)
      trace := .ofNotices (drained.notices ++
        if drained.failed then [.readFailed device HostError.reading.message] else []) }
  | _ => ⟨s, [], {}⟩

/-! ### Polling -/

/-- Looks at the host. If the list of devices cannot be had nothing changes; otherwise the events
are the arrivals, the removals and the readings. -/
def pollIn (t : Traversal) (w : Watcher δ) (h : Host) :
    Except HostError (Outcome (Watcher δ × Host) (List HidEvent)) :=
  if h.refreshFails then .error .refresh
  else
    let arrivals := Outcome.collect (attach h.toHostView) w (h.listed.filter Listing.accepted)
    .ok (arrivals.andThen fun w arrived =>
      let (w, removed) := detach t h.listed w
      (Outcome.collect readAt (w, h) (t.arrange w.attached.keys)).mapResult fun values =>
        arrived ++ removed ++ values)

/-- Looks at the host, and goes through the devices by location. -/
def poll (w : Watcher δ) (h : Host) :
    Except HostError (Outcome (Watcher δ × Host) (List HidEvent)) :=
  w.pollIn .ascending h

end Readings

end Watcher

end PadRouter

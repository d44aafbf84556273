import PadRouter.Activity
import PadRouter.Element.Basic
import PadRouter.Key.Basic
import PadRouter.Scheme

/-!
# Notices

What the library has to tell to whoever keeps a log.

* `Notice` — one constructor for each thing worth telling.
* `Notice.level`, `Notice.message`, `Notice.fields` — its weight, its wording and its details.
-/

namespace PadRouter

/-- How much a notice matters. -/
inductive Level
  | trace
  | debug
  | info
  | warn
  deriving DecidableEq, Repr, Inhabited

/-- The word for a level. -/
def Level.name : Level → String
  | trace => "TRACE"
  | debug => "DEBUG"
  | info => "INFO"
  | warn => "WARN"

/-- Something worth telling. -/
inductive Notice
  /-- The platform's HID layer is ready. -/
  | hidReady
  /-- A device file could not be opened. -/
  | fileRefused (path : String) (code : Nat)
  /-- The field map of a device is ready. -/
  | fieldMapBuilt (vendor product : UInt16) (reportIds : List UInt8) (buttons values : Nat)
  /-- The buttons of a report could not be read. -/
  | usagesFailed (status : UInt32) (reportId : UInt8) (page : UInt16)
  /-- A value of a report could not be read. -/
  | usageValueFailed (status : UInt32) (reportId : UInt8) (page usage : UInt16)
  /-- The platform cannot decode reports. -/
  | noReportDecoder (vendor product : UInt16)
  /-- A device could not be opened. -/
  | deviceRefused (vendor product : UInt16) (error : String)
  /-- A device has come up. -/
  | deviceFound (device : Device) (decoding : Bool)
  /-- A device is read no more. -/
  | readFailed (device : Device) (error : String)
  /-- An element has no use under the scheme in force. -/
  | unmappedElement (element : Element)
  /-- The register gives a device another scheme than it had. -/
  | schemeUpdated (device : Device) (scheme : Scheme)
  /-- A bound key went down. -/
  | keyDown (key : Key) (actions : List Action)
  /-- A bound key went up. -/
  | keyUp (key : Key) (actions : List Action)
  /-- The shake detector has answered yes. -/
  | shakeDetected
  /-- A pad is bound to a port. -/
  | padBound (slot : Nat) (port : Port) (name : String)
  /-- A port waits for a device in an empty slot. -/
  | portReserved (slot : Nat) (port : Port)
  /-- No slot is free. -/
  | slotsExhausted (limit : Nat)
  /-- A device of the host machine stays outside. -/
  | internalIgnored (device : Device)
  /-- A device is there already. -/
  | alreadyRegistered (device : Device)
  /-- A device has a slot. -/
  | deviceConnected (slot : Nat) (name : String) (kind : PadKind) (known : Bool)
  /-- A device is not in the register. -/
  | notSupported (slot : Nat)
  /-- A device has left its slot. -/
  | deviceDisconnected (slot : Nat) (name : String)
  /-- A reading has found no pad. -/
  | readingDropped (location : String)
  /-- One line of the list of devices. -/
  | inputDevice (slot : Nat) (name : String) (port : Option Port) (kind : PadKind)
  /-- The file with device records is read. -/
  | registerLoaded (path : String) (entries : Nat)
  /-- A listener that writes notices has heard something. -/
  | activity (activity : Activity)

namespace Notice

/-- The number of a port, if there is one. -/
def portNumber (p : Option Port) : String :=
  match p with
  | some q => "Some(" ++ toString q.number ++ ")"
  | none => "None"

/-- A set of numbers. -/
def numberSet (l : List UInt8) : String :=
  "\x7b" ++ ", ".intercalate (l.map fun n => toString n.toNat) ++ "\x7d"

/-- The weight of a notice. -/
def level : Notice → Level
  | usagesFailed .. | usageValueFailed .. => .trace
  | fileRefused .. | fieldMapBuilt .. | noReportDecoder .. | deviceFound .. | unmappedElement ..
  | schemeUpdated .. | keyDown .. | keyUp .. | portReserved .. | internalIgnored ..
  | alreadyRegistered .. | readingDropped .. => .debug
  | hidReady | shakeDetected | padBound .. | deviceConnected .. | notSupported ..
  | deviceDisconnected .. | inputDevice .. | registerLoaded .. | activity .. => .info
  | deviceRefused .. | readFailed .. | slotsExhausted .. => .warn

/-- The wording of a notice. -/
def message : Notice → String
  | hidReady => "HID API initialized"
  | fileRefused .. => "CreateFileW failed"
  | fieldMapBuilt .. => "HIDP field map built"
  | usagesFailed .. => "HidP_GetUsages failed"
  | usageValueFailed .. => "HidP_GetUsageValue failed"
  | noReportDecoder .. => "no report decoder on this platform"
  | deviceRefused .. => "cannot open HID device"
  | deviceFound .. => "HID device found"
  | readFailed .. => "HID read failed, closing device"
  | unmappedElement .. => "unmapped HID usage"
  | schemeUpdated .. => "mapping scheme updated"
  | keyDown .. => "key down"
  | keyUp .. => "key up"
  | shakeDetected => "mouse shake detected"
  | padBound .. => "pad bound"
  | portReserved .. => "port reserved for empty slot"
  | slotsExhausted .. => "Maximum number of devices reached"
  | internalIgnored .. => "ignoring internal device"
  | alreadyRegistered .. => "device already registered"
  | deviceConnected .. => "device connected"
  | notSupported .. => "device is not officially supported and may not work"
  | deviceDisconnected .. => "device disconnected"
  | readingDropped .. => "dropping report for unregistered device"
  | inputDevice .. => "input device"
  | registerLoaded .. => "device database loaded"
  | activity .. => "pad activity"

/-- The details of a notice, by name. -/
def fields : Notice → List (String × String)
  | hidReady | shakeDetected => []
  | fileRefused path code => [("path", path), ("code", toString code)]
  | fieldMapBuilt vendor product reportIds buttons values =>
    [("vid", toString vendor.toNat), ("pid", toString product.toNat),
      ("report_ids", numberSet reportIds), ("buttons", toString buttons),
      ("values", toString values)]
  | usagesFailed status reportId page =>
    [("status", toString status.toNat), ("rid", toString reportId.toNat),
      ("page", toString page.toNat)]
  | usageValueFailed status reportId page usage =>
    [("status", toString status.toNat), ("rid", toString reportId.toNat),
      ("page", toString page.toNat), ("usage", toString usage.toNat)]
  | noReportDecoder vendor product =>
    [("vid", toString vendor.toNat), ("pid", toString product.toNat)]
  | deviceRefused vendor product error =>
    [("vid", toString vendor.toNat), ("pid", toString product.toNat), ("error", error)]
  | deviceFound device decoding =>
    [("device", device.display), ("decoding", toString decoding)]
  | readFailed device error => [("device", device.display), ("error", error)]
  | unmappedElement element =>
    [("usage", toString element.usage.toNat), ("name", element.name)]
  | schemeUpdated device scheme => [("device", device.display), ("scheme", scheme.describe)]
  | keyDown key actions | keyUp key actions =>
    [("key", key.display), ("actions", Action.labels actions)]
  | padBound slot port name =>
    [("slot", toString slot), ("port", port.display), ("name", name)]
  | portReserved slot port => [("slot", toString slot), ("port", port.display)]
  | slotsExhausted limit => [("limit", toString limit)]
  | internalIgnored device | alreadyRegistered device => [("device", device.display)]
  | deviceConnected slot name kind known =>
    [("slot", toString slot), ("name", name), ("kind", kind.label), ("known", toString known)]
  | notSupported slot => [("slot", toString slot)]
  | deviceDisconnected slot name => [("slot", toString slot), ("name", name)]
  | readingDropped location => [("location_id", location)]
  | inputDevice slot name port kind =>
    [("slot", toString slot), ("name", name), ("port", portNumber port), ("kind", kind.label)]
  | registerLoaded path entries => [("path", path), ("entries", toString entries)]
  | activity a =>
    [("slot", toString a.slot), ("kind", a.kind.label), ("port", portNumber a.port),
      ("actions", Action.labels a.actions)]

end Notice

end PadRouter

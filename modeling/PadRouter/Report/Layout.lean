import PadRouter.Report.DeviceFile

/-!
# Report layouts

A layout says where in a report the bits of each element are, so that every question about a report
can be answered.

* `ButtonLayout`, `ValueLayout`, `Layout` — the places of the bits.
* `Layout.usages`, `Layout.usageValue` — the answers to the questions about a report.
* `Layout.file` — the layout as a device file.
-/

namespace PadRouter

/-- Where the bits of a group of buttons are. -/
structure ButtonLayout where
  capability : ButtonCapability
  /-- The collection under which questions about the group are answered. -/
  answers : UInt16
  /-- The usages, each with its bit. -/
  bits : List (UInt16 × Nat)
  deriving DecidableEq, Repr, Inhabited

/-- Where the bits of a range of values are. -/
structure ValueLayout where
  capability : ValueCapability
  /-- The collection under which questions about the values are answered. -/
  answers : UInt16
  /-- The first bit of the first value. -/
  bit : Nat
  deriving DecidableEq, Repr, Inhabited

/-- The places of all bits, and what goes wrong with the device file. -/
structure Layout where
  reportLength : UInt16
  buttons : List ButtonLayout := []
  values : List ValueLayout := []
  access : FileAccess := .readWrite
  /-- Whether the descriptor cannot be read. -/
  unreadable : Bool := false
  /-- Whether the length of the reports cannot be found out. -/
  lengthUnknown : Bool := false
  /-- Whether the buttons cannot be found out. -/
  buttonsUnknown : Bool := false
  /-- Whether the values cannot be found out. -/
  valuesUnknown : Bool := false
  deriving DecidableEq, Repr, Inhabited

namespace Layout

/-- No field answers to this page and collection. -/
def statusUsageNotFound : UInt32 := 0xC0110004

/-- There are more usages than the caller has room for. -/
def statusBufferTooSmall : UInt32 := 0xC0110007

/-- No buttons of the report answer to this page and collection. -/
def statusIncompatibleReport : UInt32 := 0xC011000A

/-- How many usages a caller has room for. -/
def usageRoom : Nat := 128

/-- A bit of a report. Bits count from the second byte, the lowest bit of a byte first; those beyond
the report are off. -/
def bitAt (report : List UInt8) (n : Nat) : Bool :=
  ((report.drop 1)[n / 8]?.getD 0).toNat.testBit (n % 8)

/-- The number in some bits of a report, the lowest one first. -/
def bitsFrom (report : List UInt8) (start : Nat) : Nat → Nat
  | 0 => 0
  | n + 1 => (bitAt report start).toNat + 2 * bitsFrom report (start + 1) n

/-- Whether a report has an identifier. -/
def hasId (report : List UInt8) (id : UInt8) : Bool := report.head? == some id

/-- The buttons of a page and a collection that are on in a report. -/
def usages (l : Layout) (report : List UInt8) (page collection : UInt16) :
    Except UInt32 (List UInt16) :=
  let groups := l.buttons.filter fun g =>
    g.capability.page == page && g.answers == collection && hasId report g.capability.reportId
  let on := groups.flatMap fun g =>
    g.bits.filterMap fun b => if bitAt report b.2 then some b.1 else none
  if groups.isEmpty then .error statusIncompatibleReport
  else if usageRoom < on.length then .error statusBufferTooSmall
  else .ok on

/-- The bits of a value in a report; no more than 32 of them are given. -/
def usageValue (l : Layout) (report : List UInt8) (page collection usage : UInt16) :
    Except UInt32 UInt32 :=
  let found := l.values.find? fun v =>
    v.capability.page == page && v.answers == collection &&
      hasId report v.capability.reportId &&
      (v.capability.firstUsage ≤ usage && usage ≤ v.capability.lastUsage)
  match found with
  | none => .error statusUsageNotFound
  | some v =>
    let width := v.capability.bits.toNat
    let start := v.bit + (usage.toNat - v.capability.firstUsage.toNat) * width
    .ok (UInt32.ofNat (bitsFrom report start (min width 32)))

/-- What the layout declares, as far as it can be found out. -/
def capabilities (l : Layout) : Option Capabilities :=
  if l.lengthUnknown then none
  else
    some {
      reportLength := l.reportLength
      buttons := if l.buttonsUnknown then [] else l.buttons.map ButtonLayout.capability
      values := if l.valuesUnknown then [] else l.values.map ValueLayout.capability }

/-- The device file of a layout. -/
def file (l : Layout) : DeviceFile where
  access := l.access
  readable := !l.unreadable
  capabilities := l.capabilities
  queries := ⟨l.usages, l.usageValue⟩

end Layout

end PadRouter

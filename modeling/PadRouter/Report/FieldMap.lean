import PadRouter.Element.Usage

/-!
# The fields of a device's reports

A device's descriptor declares groups of buttons and ranges of values. The field map holds what has
to be asked of each report.

* `ButtonCapability`, `ValueCapability` — what a descriptor declares.
* `FieldMap` — the distinct button groups and one field for each value.
* `FieldMap.ofCapabilities?` — the field map of a descriptor that declares anything at all.
-/

namespace PadRouter

/-- A group of buttons: those of one page in one collection. -/
structure ButtonCapability where
  reportId : UInt8
  page : UInt16
  collection : UInt16
  deriving DecidableEq, Repr, Inhabited

/-- A range of values with consecutive usages. -/
structure ValueCapability where
  reportId : UInt8
  page : UInt16
  collection : UInt16
  firstUsage : UInt16
  lastUsage : UInt16
  min : Int
  max : Int
  /-- How many bits a value takes. -/
  bits : UInt16
  deriving DecidableEq, Repr, Inhabited

/-- What a descriptor declares about input reports. -/
structure Capabilities where
  /-- Number of bytes in a report, the report identifier included. -/
  reportLength : UInt16
  buttons : List ButtonCapability
  values : List ValueCapability
  deriving DecidableEq, Repr, Inhabited

/-- One value of a report. -/
structure ValueField where
  reportId : UInt8
  page : UInt16
  usage : UInt16
  collection : UInt16
  min : Int
  max : Int
  bits : UInt16
  deriving DecidableEq, Repr, Inhabited

/-- The fields of a range; values of page 0 have none. -/
def ValueCapability.fields (c : ValueCapability) : List ValueField :=
  if c.page = 0 then []
  else
    (List.range (c.lastUsage.toNat + 1 - c.firstUsage.toNat)).map fun n =>
      { reportId := c.reportId, page := c.page, usage := c.firstUsage + UInt16.ofNat n
        collection := c.collection, min := c.min, max := c.max, bits := c.bits }

namespace Capabilities

/-- The report identifiers in use, in ascending order. -/
def reportIds (c : Capabilities) : List UInt8 :=
  let used := c.buttons.map ButtonCapability.reportId ++ c.values.map ValueCapability.reportId
  ((List.range 256).map UInt8.ofNat).filter fun id => used.contains id

end Capabilities

/-- What has to be asked of each report. -/
structure FieldMap where
  reportLength : UInt16
  buttons : List ButtonCapability
  values : List ValueField
  /-- Whether all reports have the identifier 0; then the device sends no identifier. -/
  unnumbered : Bool
  deriving DecidableEq, Repr, Inhabited

/-- The field map of a descriptor; there is none if it declares neither buttons nor values. -/
def FieldMap.ofCapabilities? (c : Capabilities) : Option FieldMap :=
  if c.buttons.isEmpty && c.values.isEmpty then none
  else
    some {
      reportLength := c.reportLength
      buttons := c.buttons.eraseDups
      values := c.values.flatMap ValueCapability.fields
      unnumbered := c.reportIds = [0] }

end PadRouter

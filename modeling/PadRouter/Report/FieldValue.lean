import PadRouter.Element.Basic
import PadRouter.Report.FieldMap

/-!
# The value in a field

* `signExtend` — the low bits of a number as a number with a sign.
* `degreesToPosition` — the position of a hat switch that reports an angle.
* `ValueField.reading` — the reading that a field's bits stand for.
-/

namespace PadRouter

/-- The low `bits` bits of `raw` as a number with a sign. At least one bit and at most 32 bits
count. The bits are moved to the top of a 64-bit word and back, which copies the highest one. -/
def signExtend (raw : UInt32) (bits : UInt16) : Int :=
  let width := max 1 (min bits.toNat 32)
  let shift := 64 - width
  (((BitVec.ofNat 64 raw.toNat) <<< shift).sshiftRight shift).toInt

/-- The position of a hat switch at rest. -/
def centredPosition : Int := 8

/-- The position, from 0 for up and clockwise to 7, whose sector of 45 degrees holds the angle of
`raw`, where the values from `lo` to `hi` go once round. A value outside stands for the centre. -/
def degreesToPosition (raw lo hi : Int) : Int :=
  if raw < lo ∨ hi < raw then centredPosition
  else
    let angle : Rat := ((raw - lo : Int) : Rat) * 360 / ((hi - lo + 1 : Int) : Rat)
    ((angle + 45 / 2) / 45).floor % 8

namespace ValueField

/-- The element that the field belongs to. -/
def element (f : ValueField) : Element := ⟨f.page, f.usage⟩

/-- Whether the field is a hat switch that does not count eight positions and hence reports an
angle. -/
def isDegreeHat (f : ValueField) : Bool :=
  f.page == Page.desktop && f.usage == Usage.hatSwitch &&
    !((f.min, f.max) == (0, 7) || (f.min, f.max) == (1, 8))

/-- The number that the field's bits stand for: it has a sign if the least value has one. -/
def number (f : ValueField) (raw : UInt32) : Int :=
  if f.min < 0 then signExtend raw f.bits else raw.toNat

/-- The reading that the field's bits stand for. An angle becomes a position. -/
def reading (f : ValueField) (raw : UInt32) : Reading :=
  if f.isDegreeHat then ⟨f.element, degreesToPosition (f.number raw) f.min f.max, 0, 7⟩
  else ⟨f.element, f.number raw, f.min, f.max⟩

end ValueField

end PadRouter

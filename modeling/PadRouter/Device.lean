import PadRouter.Element.Usage

/-!
# Devices

* `Device` — what is known of an attached HID device.
* `Device.isMouse`, `Device.isInternal` — its classification.
* `Device.display` — the device as it is shown.
-/

namespace PadRouter

/-- What is known of an attached HID device. The vendor and product identifiers are opaque strings
that key the device register; the location is unique to the attached device. -/
structure Device where
  vendorId : String
  productId : String
  locationId : String
  product : Option String := none
  manufacturer : Option String := none
  serialNumber : Option String := none
  /-- The name of the transport, such as `USB` or `Bluetooth Low Energy`. -/
  transport : Option String := none
  builtIn : Bool := false
  usagePage : Option UInt16 := none
  usage : Option UInt16 := none
  deriving DecidableEq, Repr, Inhabited

namespace Device

/-- Whether the device is a mouse by its primary usage. -/
def isMouse (d : Device) : Bool :=
  d.usagePage == some Page.desktop && d.usage == some Usage.mouse

/-- Whether `text` begins with `word`, up to the case of ASCII letters. -/
def beginsWith (text word : String) : Bool :=
  (word.toList.map Char.toLower).isPrefixOf (text.toList.map Char.toLower)

/-- Whether the transport is of a kind. -/
def transportIs (d : Device) (kind : String) : Bool := d.transport.any (beginsWith · kind)

/-- Whether the manufacturer's name begins with `Apple`. -/
def isApple (d : Device) : Bool := d.manufacturer.any fun m => "Apple".toList.isPrefixOf m.toList

/-- Whether the device belongs to the host machine. Devices on SPI always do. A mouse does when it
is built in or made by Apple, whose mice and trackpads pair over Bluetooth. Any other Bluetooth
device is external, whatever its flag says. -/
def isInternal (d : Device) : Bool :=
  if d.transportIs "SPI" then true
  else if d.isMouse then d.builtIn || d.isApple
  else if d.transportIs "Bluetooth" then false
  else d.builtIn

/-- The device as it is shown. -/
def display (d : Device) : String :=
  d.product.getD "HID device" ++ " [" ++ d.vendorId ++ "/" ++ d.productId ++ "] @ " ++ d.locationId

end Device

end PadRouter

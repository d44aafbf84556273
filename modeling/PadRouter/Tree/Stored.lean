import PadRouter.Config
import PadRouter.Device
import PadRouter.Register
import PadRouter.Tree.Basic

/-!
# Stored forms

The trees that stand for the types which are kept in files.

* Actions, kinds and table names are names, ports and selectors are numbers.
* A key without modifiers leaves them out; every other field is always written.
* A binding table is the list of its bindings and is read by binding them in order.
* Selectors, modifiers, display data, tables and settings may be missing and then have their default.
-/

namespace PadRouter

open Storable

/-! ### Names and numbers -/

instance : Storable Action where
  toTree a := .text a.name
  ofTree? d t := t.name? d >>= Action.ofName?

instance : Storable Bindable where
  toTree b := .text b.name
  ofTree? d t := t.name? d >>= Bindable.ofName?

instance : Storable PadKind where
  toTree k := .text k.name
  ofTree? d t := t.name? d >>= PadKind.ofName?

instance : Storable KeyMapId where
  toTree id := .text id.name
  ofTree? d t := t.name? d >>= KeyMapId.ofName?

instance : Storable Port where
  toTree p := .int p.number
  ofTree? _ t := t.nat? 0xFF >>= fun n => (Port.ofNumber? n).toOption

instance : Storable LeftStick where
  toTree l := .int l.index
  ofTree? _ t := t.nat? 0xFF >>= LeftStick.ofIndex?

instance : Storable RightStick where
  toTree r := .int r.index
  ofTree? _ t := t.nat? 0xFF >>= RightStick.ofIndex?

instance : Storable Hat where
  toTree h := .int h.index
  ofTree? _ t := t.nat? 0xFF >>= Hat.ofIndex?

/-! ### Records -/

instance : Storable Modifiers where
  toTree m :=
    .record [("shift", toTree m.shift), ("control", toTree m.control), ("option", toTree m.option),
      ("command", toTree m.command)]
  ofTree? d t := do
    let fs ← t.fields? d ["shift", "control", "option", "command"]
    return {
      shift := ← withDefault d fs "shift" false
      control := ← withDefault d fs "control" false
      option := ← withDefault d fs "option" false
      command := ← withDefault d fs "command" false }

instance : Storable Key where
  toTree k :=
    .record (("key_code", toTree k.code) ::
      if k.modifiers.isEmpty then [] else [("modifiers", toTree k.modifiers)])
  ofTree? d t := do
    let fs ← t.fields? d ["key_code", "modifiers"]
    return {
      code := ← required d fs "key_code"
      modifiers := ← withDefault d fs "modifiers" {} }

instance : Storable KeyBinding where
  toTree b := .record [("key", toTree b.key), ("action", toTree b.action)]
  ofTree? d t := do
    let fs ← t.fields? d ["key", "action"]
    return { key := ← required d fs "key", action := ← required d fs "action" }

instance : Storable KeyMap where
  toTree m := toTree m.bindings
  ofTree? d t := (ofTree? d t).map KeyMap.ofBindings

instance : Storable KeyMaps where
  toTree m :=
    .record [("mouse", toTree m.mouse), ("keyset1", toTree m.keyset1),
      ("keyset2", toTree m.keyset2)]
  ofTree? d t := do
    let fs ← t.fields? d ["mouse", "keyset1", "keyset2"]
    return {
      mouse := ← withDefault d fs "mouse" .empty
      keyset1 := ← withDefault d fs "keyset1" .keyset1
      keyset2 := ← withDefault d fs "keyset2" .keyset2 }

instance : Storable Scheme where
  toTree s := .record [("left", toTree s.left), ("right", toTree s.right), ("hat", toTree s.hat)]
  ofTree? d t := do
    let fs ← t.fields? d ["left", "right", "hat"]
    return {
      left := ← withDefault d fs "left" .a0a1
      right := ← withDefault d fs "right" .a2a5
      hat := ← withDefault d fs "hat" .h0h7 }

instance : Storable Record where
  toTree r :=
    .record [("vendor_id", toTree r.vendorId), ("product_id", toTree r.productId),
      ("name", toTree r.name), ("icon", toTree r.icon), ("scheme", toTree r.scheme),
      ("known", toTree r.known)]
  ofTree? d t := do
    let fs ← t.fields? d ["vendor_id", "product_id", "name", "icon", "scheme", "known"]
    return {
      vendorId := ← required d fs "vendor_id"
      productId := ← required d fs "product_id"
      name := ← withDefault d fs "name" none
      icon := ← withDefault d fs "icon" none
      scheme := ← withDefault d fs "scheme" {}
      known := ← withDefault d fs "known" false }

instance : Storable Device where
  toTree v :=
    .record [("vendor_id", toTree v.vendorId), ("product_id", toTree v.productId),
      ("location_id", toTree v.locationId), ("product", toTree v.product),
      ("manufacturer", toTree v.manufacturer), ("serial_number", toTree v.serialNumber),
      ("transport", toTree v.transport), ("built_in", toTree v.builtIn),
      ("usage_page", toTree v.usagePage), ("usage", toTree v.usage)]
  ofTree? d t := do
    let fs ← t.fields? d ["vendor_id", "product_id", "location_id", "product", "manufacturer",
      "serial_number", "transport", "built_in", "usage_page", "usage"]
    return {
      vendorId := ← required d fs "vendor_id"
      productId := ← required d fs "product_id"
      locationId := ← required d fs "location_id"
      product := ← orAbsent d fs "product"
      manufacturer := ← orAbsent d fs "manufacturer"
      serialNumber := ← orAbsent d fs "serial_number"
      transport := ← orAbsent d fs "transport"
      builtIn := ← required d fs "built_in"
      usagePage := ← orAbsent d fs "usage_page"
      usage := ← orAbsent d fs "usage" }

instance : Storable Config where
  toTree c :=
    .record [("slot_limit", toTree c.slotLimit), ("disconnect_joy_keys", toTree c.disconnectKeys),
      ("release_mouse_by_shaking", toTree c.releaseMouseByShaking),
      ("database_path", toTree c.registerPath), ("port1", toTree c.port1),
      ("port2", toTree c.port2), ("keymaps", toTree c.keyMaps)]
  ofTree? d t := do
    let fs ← t.fields? d ["slot_limit", "disconnect_joy_keys", "release_mouse_by_shaking",
      "database_path", "port1", "port2", "keymaps"]
    return {
      slotLimit := ← withDefault d fs "slot_limit" 5
      disconnectKeys := ← withDefault d fs "disconnect_joy_keys" true
      releaseMouseByShaking := ← withDefault d fs "release_mouse_by_shaking" true
      registerPath := ← withDefault d fs "database_path" none
      port1 := ← withDefault d fs "port1" none
      port2 := ← withDefault d fs "port2" none
      keyMaps := ← withDefault d fs "keymaps" {} }

end PadRouter

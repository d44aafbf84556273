import PadRouter.Scheme
import PadRouter.Table

/-!
# The device register

Resolves the vendor and product identifiers of a device to its scheme and its display data.
Identifiers are opaque strings, compared as they are.

* `Record` — what the register holds on one device model.
* `Register` — the records in the order of their identifiers, and a revision that counts changes.
* `Register.resolve` — the scheme and display data of a device, also of one without a record.
* `Register.shipped` — the register with the supported models.
-/

namespace PadRouter

/-- The identifiers of a device model. -/
structure ModelId where
  vendor : String
  product : String
  deriving DecidableEq, Repr, Inhabited

namespace ModelId

/-- Models are ordered by vendor, then by product, each by its characters. -/
instance : Ord ModelId := ⟨compareLex (compareOn vendor) (compareOn product)⟩

theorem compare_eq (a b : ModelId) :
    compare a b = (compare a.vendor b.vendor).then (compare a.product b.product) := rfl

instance : Std.TransOrd ModelId :=
  inferInstanceAs (Std.TransCmp (compareLex (compareOn vendor) (compareOn product)))

instance : Std.LawfulEqOrd ModelId where
  eq_of_compare {a b} h := by
    obtain ⟨hv, hp⟩ := Ordering.then_eq_eq.mp (compare_eq a b ▸ h)
    cases a
    cases b
    simp_all

end ModelId

/-- What the register holds on one device model. -/
structure Record where
  vendorId : String
  productId : String
  name : Option String := none
  icon : Option String := none
  scheme : Scheme := {}
  /-- Whether the model is supported, and not merely entered by the user. -/
  known : Bool := false
  deriving DecidableEq, Repr, Inhabited

/-- The identifiers that a record is found under. -/
def Record.id (r : Record) : ModelId := ⟨r.vendorId, r.productId⟩

/-- What the register says of a device. -/
structure Resolution where
  scheme : Scheme := {}
  name : Option String := none
  icon : Option String := none
  known : Bool := false
  deriving DecidableEq, Repr, Inhabited

/-- The records by their identifiers, and a counter of changes. -/
structure Register where
  table : Table ModelId Record := {}
  revision : Nat := 0

namespace Register

/-- The register without records. -/
def empty : Register := {}

instance : Inhabited Register := ⟨empty⟩

/-! ### Supported models -/

/-- The record of a supported model. -/
def supported (vendor product name icon : String) : Record :=
  { vendorId := vendor, productId := product, name := some name, icon := some icon, known := true }

/-- The supported models, by the decimal identifiers that the HID layer reports. -/
def supportedModels : List Record :=
  [supported "1035" "25907" "Competition Pro SL-6602" "joystick_speedlink",
    supported "1356" "616" "Sony DualShock 3" "joystick_sony",
    supported "1356" "1476" "Sony DualShock 4" "joystick_sony",
    supported "1356" "2508" "Sony DualShock 4 (2nd Gen)" "joystick_sony",
    supported "1155" "36869" "RetroFun! Joystick Adapter" "retro_adapter",
    supported "4" "1" "aJoy Retro Adapter" "retro_adapter"]

/-! ### Look-up -/

/-- The record of a model. -/
def get? (r : Register) (vendor product : String) : Option Record := r.table.get? ⟨vendor, product⟩

/-- What the register says of a model. One without a record has the scheme with all numbers `0`. -/
def resolve (r : Register) (vendor product : String) : Resolution :=
  match r.get? vendor product with
  | some record => ⟨record.scheme, record.name, record.icon, record.known⟩
  | none => {}

/-- Whether a model is supported. -/
def isKnown (r : Register) (vendor product : String) : Bool :=
  (r.get? vendor product).any Record.known

/-- The name of a model. -/
def name? (r : Register) (vendor product : String) : Option String :=
  (r.get? vendor product).bind Record.name

/-- The icon of a model. -/
def icon? (r : Register) (vendor product : String) : Option String :=
  (r.get? vendor product).bind Record.icon

/-- The scheme of a model. -/
def scheme (r : Register) (vendor product : String) : Scheme := (r.resolve vendor product).scheme

/-- All records, in the order of their identifiers. -/
def records (r : Register) : List Record := r.table.values

/-- Number of records. -/
def size (r : Register) : Nat := r.table.size

/-- Whether there is no record. -/
def isEmpty (r : Register) : Bool := r.table.isEmpty

/-! ### Changes -/

/-- A table with the records of a list put in, one after the other. -/
def put (t : Table ModelId Record) (l : List Record) : Table ModelId Record :=
  l.foldl (fun t r => t.insert r.id r) t

/-- The register with another table; this counts as one change. -/
def changed (r : Register) (t : Table ModelId Record) : Register := ⟨t, r.revision + 1⟩

/-- Goes back to the supported models. -/
def reset (r : Register) : Register := r.changed (put {} supportedModels)

/-- The register as it is shipped. -/
def shipped : Register := empty.reset

/-- Puts a record in, in place of the one with its identifiers. -/
def insert (r : Register) (record : Record) : Register :=
  r.changed (r.table.insert record.id record)

/-- Puts the records of a list in, as one change. -/
def merge (r : Register) (l : List Record) : Register := r.changed (put r.table l)

/-- Gives a model a scheme. A model without a record gets a nameless one. -/
def setScheme (r : Register) (vendor product : String) (s : Scheme) : Register :=
  let record := match r.get? vendor product with
    | some record => { record with scheme := s }
    | none => { vendorId := vendor, productId := product, scheme := s }
  r.changed (r.table.insert ⟨vendor, product⟩ record)

/-- Gives a model the scheme with these numbers, if there is such a scheme. -/
def setRawScheme (r : Register) (vendor product : String) (left right hat : Nat) :
    Except SelectorError Register := do
  return r.setScheme vendor product (← Scheme.ofRaw? left right hat)

/-- Takes the record of a model out. Without one nothing changes. -/
def remove (r : Register) (vendor product : String) : Register :=
  if r.table.contains ⟨vendor, product⟩ then r.changed (r.table.erase ⟨vendor, product⟩) else r

end Register

end PadRouter

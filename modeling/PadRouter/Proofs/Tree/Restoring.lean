import PadRouter.Proofs.Key.Edits
import PadRouter.Proofs.Tree.Trimming
import PadRouter.Tree.Stored

/-!
# Stored values are restored

For each type that is kept in files: which of its fields may be left out, and that its values are
read back.

* `yields_key`, `yields_config`, … — records are read off members in any order, whatever the format.
* `restores_key` — a key, which leaves out its modifiers if there are none.
* `restores_keyMap`, `restores_keyMaps` — tables with one key for an action, modifiers included.
* `restores_deviceRecord`, `restores_device`, `restores_config` — device records, devices, settings.
-/

namespace PadRouter

open Storable

/-! ### Leaves -/

instance : Trimmable Bool := ⟨Eq⟩

instance : Trimmable String := ⟨Eq⟩

instance : Trimmable UInt16 := ⟨Eq⟩

instance : Trimmable UInt64 := ⟨Eq⟩

instance : Trimmable Action := ⟨Eq⟩

instance : Trimmable Bindable := ⟨Eq⟩

instance : Trimmable PadKind := ⟨Eq⟩

instance : Trimmable KeyMapId := ⟨Eq⟩

instance : Trimmable Port := ⟨Eq⟩

instance : Trimmable LeftStick := ⟨Eq⟩

instance : Trimmable RightStick := ⟨Eq⟩

instance : Trimmable Hat := ⟨Eq⟩

section

variable {α : Type} [Storable α] {a : α} {d : Dialect}

/-- A leaf is not trimmed. -/
theorem restores_leaf [Trimmable α] (htrims : Trims α = Eq) (hplain : (toTree a).Plain)
    (hread : ∀ d, ofTree? d (toTree a) = some a) : Restores a where
  whole := by rw [htrims]
  read := by
    intro t ht
    rw [htrims] at ht
    obtain rfl := ht
    exact ⟨hplain, hread⟩

theorem nat?_int {n bound : Nat} (h : n ≤ bound) : (Tree.int n).nat? bound = some n := by
  change (if n ≤ bound then some n else none) = some n
  rw [if_pos h]

end

theorem restores_bool (b : Bool) : Restores b := restores_leaf rfl (.bool b) fun _ => rfl

theorem restores_string (s : String) : Restores s := restores_leaf rfl (.text s) fun _ => rfl

theorem restores_uInt16 (n : UInt16) : Restores n := by
  refine restores_leaf rfl (.int _) fun d => ?_
  have hbound : n.toNat ≤ 0xFFFF := Nat.le_of_lt_succ n.toNat_lt
  change ((Tree.int n.toNat).nat? 0xFFFF).map UInt16.ofNat = some n
  rw [nat?_int hbound, Option.map_some, UInt16.ofNat_toNat]

theorem restores_uInt64 (n : UInt64) : Restores n := by
  refine restores_leaf rfl (.int _) fun d => ?_
  have hbound : n.toNat ≤ 0xFFFFFFFFFFFFFFFF := Nat.le_of_lt_succ n.toNat_lt
  change ((Tree.int n.toNat).nat? 0xFFFFFFFFFFFFFFFF).map UInt64.ofNat = some n
  rw [nat?_int hbound, Option.map_some, UInt64.ofNat_toNat]

theorem restores_action (a : Action) : Restores a :=
  restores_leaf rfl (.text _) fun _ => Action.ofName?_name a

theorem restores_bindable (b : Bindable) : Restores b :=
  restores_leaf rfl (.text _) fun _ => Bindable.ofName?_name b

theorem restores_padKind (k : PadKind) : Restores k :=
  restores_leaf rfl (.text _) fun _ => PadKind.ofName?_name k

theorem restores_keyMapId (id : KeyMapId) : Restores id :=
  restores_leaf rfl (.text _) fun _ => KeyMapId.ofName?_name id

theorem restores_port (p : Port) : Restores p := by
  refine restores_leaf rfl (.int _) fun d => ?_
  cases p <;> rfl

theorem restores_leftStick (l : LeftStick) : Restores l := by
  refine restores_leaf rfl (.int _) fun d => ?_
  cases l <;> rfl

theorem restores_rightStick (r : RightStick) : Restores r := by
  refine restores_leaf rfl (.int _) fun d => ?_
  cases r <;> rfl

theorem restores_hat (h : Hat) : Restores h := by
  refine restores_leaf rfl (.int _) fun d => ?_
  cases h <;> rfl

/-! ### Options and lists -/

section

variable {α : Type} [Storable α] {a : α} {d : Dialect}

/-- Only leaves are stored as options. -/
instance : Trimmable (Option α) := ⟨Eq⟩

instance [Trimmable α] : Trimmable (List α) := ⟨trimsList (Trims α)⟩

theorem ofTree?_option {t : Tree} (h : t ≠ .null) :
    (ofTree? d t : Option (Option α)) = (ofTree? d t : Option α).map some := by
  cases t with
  | null => contradiction
  | _ => rfl

theorem restores_option [Trimmable α] (hnull : ∀ a : α, toTree a ≠ .null)
    (h : ∀ a : α, Restores a) (o : Option α) : Restores o := by
  cases o with
  | none => exact restores_leaf rfl .null fun _ => rfl
  | some a =>
    have ha := (h a).read (h a).whole
    refine restores_leaf rfl ha.1 fun d => ?_
    change (ofTree? d (toTree a) : Option (Option α)) = some (some a)
    rw [ofTree?_option (hnull a), ha.2 d]
    rfl

theorem trims_list_iff [Trimmable α] {l : List α} {t : Tree} :
    Trims (List α) (toTree l) t ↔
      ∃ items, t = .list items ∧ List.Forall₂ (fun a t => Trims α (toTree a) t) l items := by
  cases t with
  | list items =>
    change List.Forall₂ (Trims α) (l.map toTree) items ↔ _
    rw [List.forall₂_map_left_iff]
    exact ⟨fun h => ⟨items, rfl, h⟩, by rintro ⟨_, ⟨⟩, h⟩; exact h⟩
  | _ => exact ⟨fun h => h.elim, by rintro ⟨_, h, _⟩; contradiction⟩

theorem mapM_ofTree? {d : Dialect} {items : List Tree} {l : List α}
    (h : List.Forall₂ (fun t a => ofTree? d t = some a) items l) :
    items.mapM (ofTree? d) = some l := by
  induction h with
  | nil => rfl
  | cons ha _ ih =>
    rw [List.mapM_cons, ha, ih]
    rfl

theorem restores_list [Trimmable α] {l : List α} (h : ∀ a ∈ l, Restores a) : Restores l where
  whole := by
    refine trims_list_iff.2 ⟨l.map toTree, rfl, ?_⟩
    rw [List.forall₂_map_right_iff, List.forall₂_same]
    exact fun a ha => (h a ha).whole
  read := by
    intro t ht
    obtain ⟨items, rfl, hitems⟩ := trims_list_iff.1 ht
    have hall : List.Forall₂ (fun t a => t.Plain ∧ ∀ d, ofTree? d t = some a) items l :=
      ((List.forall₂_and_left _ _).2 ⟨h, hitems⟩).flip.imp fun t a ha => ha.1.read ha.2
    obtain ⟨hplain, hread⟩ := (List.forall₂_and_left _ _).1 hall
    exact ⟨.list hplain, fun d => mapM_ofTree? (hread.imp fun t a ha => ha d)⟩

end

theorem restores_text? (o : Option String) : Restores o :=
  restores_option (fun _ => Tree.noConfusion) restores_string o

theorem restores_uInt16? (o : Option UInt16) : Restores o :=
  restores_option (fun _ => Tree.noConfusion) restores_uInt16 o

theorem restores_uInt64? (o : Option UInt64) : Restores o :=
  restores_option (fun _ => Tree.noConfusion) restores_uInt64 o

/-! ### Slots -/

namespace Slot

variable {α : Type} [Storable α] [Trimmable α] {name : String} {a default : α}

theorem sound_required (ha : Restores a) : (⟨name, a, none⟩ : Slot).Sound :=
  ⟨ha, by rintro _ ⟨⟩⟩

theorem sound_optional (ha : Restores a) (hdefault : Restores default) :
    (⟨name, a, some default⟩ : Slot).Sound :=
  ⟨ha, by rintro _ ⟨⟩; exact hdefault⟩

end Slot

/-- Where a record has names, a field may be missing just as if its default were `none`. -/
theorem orAbsent_fieldsOf {α : Type} [Storable α] (d : Dialect) (ms : List (String × Tree))
    (name : String) :
    orAbsent (α := α) d (fieldsOf ms) name = withDefault d (fieldsOf ms) name none := by
  simp only [orAbsent, withDefault, fieldsOf]
  cases Tree.member? name ms with
  | none => rfl
  | some t => cases t <;> rfl

/-! ### Records -/

instance : Trimmable Modifiers :=
  ⟨trimsRecord [.optional "shift" false, .optional "control" false, .optional "option" false,
    .optional "command" false]⟩

/-- The slots of a record of modifiers. -/
def Modifiers.slots (m : Modifiers) : List Slot :=
  [⟨"shift", m.shift, some false⟩, ⟨"control", m.control, some false⟩,
    ⟨"option", m.option, some false⟩, ⟨"command", m.command, some false⟩]

theorem yields_modifiers {m : Modifiers} {ms : List (String × Tree)} (h : Yields m.slots ms)
    (d : Dialect) : ofTree? d (.record ms) = some m := by
  have hfields := h.fields? (d := d) ["shift", "control", "option", "command"]
  have hread (name : String) (b : Bool) (hs : ⟨name, b, some false⟩ ∈ m.slots) :
      withDefault d (fieldsOf ms) name false = some b := h.withDefault hs
  have hshift := hread "shift" m.shift (by simp [Modifiers.slots])
  have hcontrol := hread "control" m.control (by simp [Modifiers.slots])
  have hoption := hread "option" m.option (by simp [Modifiers.slots])
  have hcommand := hread "command" m.command (by simp [Modifiers.slots])
  simp [ofTree?, hfields, hshift, hcontrol, hoption, hcommand]

theorem restores_modifiers (m : Modifiers) : Restores m := by
  have hnames : (m.slots.map Slot.name).Nodup := by simp [Modifiers.slots]
  have hsound (name : String) (b : Bool) : (⟨name, b, some false⟩ : Slot).Sound :=
    Slot.sound_optional (restores_bool b) (restores_bool false)
  refine restores_record m.slots m.slots (List.Sublist.refl _) rfl rfl hnames ?_ fun ms h d =>
    yields_modifiers h d
  simp only [Modifiers.slots, List.forall_mem_cons]
  exact ⟨hsound _ _, hsound _ _, hsound _ _, hsound _ _, by simp⟩

instance : Trimmable Key :=
  ⟨trimsRecord [.required UInt16 "key_code", .optional "modifiers" ({} : Modifiers)]⟩

/-- The slots of a key, written or not. -/
def Key.slots (k : Key) : List Slot :=
  [⟨"key_code", k.code, none⟩, ⟨"modifiers", k.modifiers, some {}⟩]

/-- The slots of a key that are written: there are no modifiers to write if none is on. -/
def Key.written (k : Key) : List Slot :=
  ⟨"key_code", k.code, none⟩ ::
    if k.modifiers.isEmpty then [] else [⟨"modifiers", k.modifiers, some {}⟩]

theorem Key.toTree_eq (k : Key) : toTree k = .record (k.written.map Slot.member) := by
  cases hempty : k.modifiers.isEmpty <;> simp [toTree, Key.written, Slot.member, hempty]

theorem Key.written_sublist (k : Key) : k.written.Sublist k.slots := by
  cases hempty : k.modifiers.isEmpty <;> simp [Key.written, Key.slots, hempty]

theorem yields_key {k : Key} {ms : List (String × Tree)} (h : Yields k.written ms)
    (d : Dialect) : ofTree? d (.record ms) = some k := by
  have hfields := h.fields? (d := d) ["key_code", "modifiers"]
  have hcode : required d (fieldsOf ms) "key_code" = some k.code :=
    h.required (by simp [Key.written])
  have hmodifiers : withDefault d (fieldsOf ms) "modifiers" {} = some k.modifiers := by
    cases hempty : k.modifiers.isEmpty with
    | true =>
      have hnone : k.modifiers = {} := by simpa [Modifiers.isEmpty] using hempty
      rw [hnone]
      exact h.withDefault_of_not_mem (by simp [Key.written, hempty]) ({} : Modifiers)
    | false => exact h.withDefault (by simp [Key.written, hempty])
  simp [ofTree?, hfields, hcode, hmodifiers]

/-- A key leaves out its modifiers if there are none. -/
theorem restores_key (k : Key) : Restores k := by
  have hsound : ∀ s ∈ k.slots, s.Sound := by
    simp only [Key.slots, List.forall_mem_cons]
    exact ⟨Slot.sound_required (restores_uInt16 _),
      Slot.sound_optional (restores_modifiers _) (restores_modifiers _), by simp⟩
  exact restores_record k.slots k.written k.written_sublist rfl k.toTree_eq (by simp [Key.slots])
    (fun s hs => hsound s (k.written_sublist.subset hs)) fun ms h d => yields_key h d

instance : Trimmable KeyBinding :=
  ⟨trimsRecord [.required Key "key", .required Bindable "action"]⟩

/-- The slots of a binding. -/
def KeyBinding.slots (b : KeyBinding) : List Slot :=
  [⟨"key", b.key, none⟩, ⟨"action", b.action, none⟩]

theorem yields_keyBinding {b : KeyBinding} {ms : List (String × Tree)} (h : Yields b.slots ms)
    (d : Dialect) : ofTree? d (.record ms) = some b := by
  have hfields := h.fields? (d := d) ["key", "action"]
  have hkey : required d (fieldsOf ms) "key" = some b.key :=
    h.required (by simp [KeyBinding.slots])
  have haction : required d (fieldsOf ms) "action" = some b.action :=
    h.required (by simp [KeyBinding.slots])
  simp [ofTree?, hfields, hkey, haction]

theorem restores_keyBinding (b : KeyBinding) : Restores b := by
  have hnames : (b.slots.map Slot.name).Nodup := by simp [KeyBinding.slots]
  refine restores_record b.slots b.slots (List.Sublist.refl _) rfl rfl hnames ?_ fun ms h d =>
    yields_keyBinding h d
  simp only [KeyBinding.slots, List.forall_mem_cons]
  exact ⟨Slot.sound_required (restores_key _), Slot.sound_required (restores_bindable _), by simp⟩

/-! ### Binding tables -/

instance : Trimmable KeyMap := ⟨Trims (List KeyBinding)⟩

/-- A table is read by binding its bindings one after the other. -/
theorem restores_keyMap {m : KeyMap} (h : m.OneKey) : Restores m where
  whole := (restores_list fun b _ => restores_keyBinding b).whole
  read := by
    intro t ht
    have hread := (restores_list (l := m.bindings) fun b _ => restores_keyBinding b).read ht
    refine ⟨hread.1, fun d => ?_⟩
    change (ofTree? d t).map KeyMap.ofBindings = some m
    rw [hread.2 d, Option.map_some, KeyMap.ofBindings_bindings h]

instance : Trimmable KeyMaps :=
  ⟨trimsRecord [.optional "mouse" KeyMap.empty, .optional "keyset1" KeyMap.keyset1,
    .optional "keyset2" KeyMap.keyset2]⟩

/-- The slots of the three tables. -/
def KeyMaps.slots (m : KeyMaps) : List Slot :=
  [⟨"mouse", m.mouse, some .empty⟩, ⟨"keyset1", m.keyset1, some .keyset1⟩,
    ⟨"keyset2", m.keyset2, some .keyset2⟩]

theorem yields_keyMaps {m : KeyMaps} {ms : List (String × Tree)} (h : Yields m.slots ms)
    (d : Dialect) : ofTree? d (.record ms) = some m := by
  have hfields := h.fields? (d := d) ["mouse", "keyset1", "keyset2"]
  have hmouse : withDefault d (fieldsOf ms) "mouse" .empty = some m.mouse :=
    h.withDefault (by simp [KeyMaps.slots])
  have hkeyset1 : withDefault d (fieldsOf ms) "keyset1" .keyset1 = some m.keyset1 :=
    h.withDefault (by simp [KeyMaps.slots])
  have hkeyset2 : withDefault d (fieldsOf ms) "keyset2" .keyset2 = some m.keyset2 :=
    h.withDefault (by simp [KeyMaps.slots])
  simp [ofTree?, hfields, hmouse, hkeyset1, hkeyset2]

theorem restores_keyMaps {m : KeyMaps} (h : ∀ id, (m.get id).OneKey) : Restores m := by
  have hnames : (m.slots.map Slot.name).Nodup := by simp [KeyMaps.slots]
  have hdefault (id : KeyMapId) : Restores (KeyMaps.get {} id) :=
    restores_keyMap (KeyMap.oneKey_shipped id)
  refine restores_record m.slots m.slots (List.Sublist.refl _) rfl rfl hnames ?_ fun ms h d =>
    yields_keyMaps h d
  simp only [KeyMaps.slots, List.forall_mem_cons]
  exact ⟨Slot.sound_optional (restores_keyMap (h .mouse)) (hdefault .mouse),
    Slot.sound_optional (restores_keyMap (h .keyset1)) (hdefault .keyset1),
    Slot.sound_optional (restores_keyMap (h .keyset2)) (hdefault .keyset2), by simp⟩

/-! ### Schemes, device records and devices -/

instance : Trimmable Scheme :=
  ⟨trimsRecord [.optional "left" LeftStick.a0a1, .optional "right" RightStick.a2a5,
    .optional "hat" Hat.h0h7]⟩

/-- The slots of a scheme. -/
def Scheme.slots (s : Scheme) : List Slot :=
  [⟨"left", s.left, some .a0a1⟩, ⟨"right", s.right, some .a2a5⟩, ⟨"hat", s.hat, some .h0h7⟩]

theorem restores_scheme (s : Scheme) : Restores s := by
  have hnames : (s.slots.map Slot.name).Nodup := by simp [Scheme.slots]
  refine restores_record s.slots s.slots (List.Sublist.refl _) rfl rfl hnames ?_ fun ms h d => ?_
  · simp only [Scheme.slots, List.forall_mem_cons]
    exact ⟨Slot.sound_optional (restores_leftStick _) (restores_leftStick _),
      Slot.sound_optional (restores_rightStick _) (restores_rightStick _),
      Slot.sound_optional (restores_hat _) (restores_hat _), by simp⟩
  · have hfields := h.fields? (d := d) ["left", "right", "hat"]
    have hleft : withDefault d (fieldsOf ms) "left" .a0a1 = some s.left :=
      h.withDefault (by simp [Scheme.slots])
    have hright : withDefault d (fieldsOf ms) "right" .a2a5 = some s.right :=
      h.withDefault (by simp [Scheme.slots])
    have hhat : withDefault d (fieldsOf ms) "hat" .h0h7 = some s.hat :=
      h.withDefault (by simp [Scheme.slots])
    simp [ofTree?, hfields, hleft, hright, hhat]

instance : Trimmable Record :=
  ⟨trimsRecord [.required String "vendor_id", .required String "product_id",
    .optional "name" (none : Option String), .optional "icon" (none : Option String),
    .optional "scheme" ({} : Scheme), .optional "known" false]⟩

/-- The slots of a device record. -/
def Record.slots (r : Record) : List Slot :=
  [⟨"vendor_id", r.vendorId, none⟩, ⟨"product_id", r.productId, none⟩, ⟨"name", r.name, some none⟩,
    ⟨"icon", r.icon, some none⟩, ⟨"scheme", r.scheme, some {}⟩, ⟨"known", r.known, some false⟩]

theorem restores_deviceRecord (r : Record) : Restores r := by
  have hnames : (r.slots.map Slot.name).Nodup := by simp [Record.slots]
  refine restores_record r.slots r.slots (List.Sublist.refl _) rfl rfl hnames ?_ fun ms h d => ?_
  · simp only [Record.slots, List.forall_mem_cons]
    exact ⟨Slot.sound_required (restores_string _), Slot.sound_required (restores_string _),
      Slot.sound_optional (restores_text? _) (restores_text? _),
      Slot.sound_optional (restores_text? _) (restores_text? _),
      Slot.sound_optional (restores_scheme _) (restores_scheme _),
      Slot.sound_optional (restores_bool _) (restores_bool _), by simp⟩
  · have hfields := h.fields? (d := d)
      ["vendor_id", "product_id", "name", "icon", "scheme", "known"]
    have hvendor : required d (fieldsOf ms) "vendor_id" = some r.vendorId :=
      h.required (by simp [Record.slots])
    have hproduct : required d (fieldsOf ms) "product_id" = some r.productId :=
      h.required (by simp [Record.slots])
    have hname : withDefault d (fieldsOf ms) "name" none = some r.name :=
      h.withDefault (by simp [Record.slots])
    have hicon : withDefault d (fieldsOf ms) "icon" none = some r.icon :=
      h.withDefault (by simp [Record.slots])
    have hscheme : withDefault d (fieldsOf ms) "scheme" {} = some r.scheme :=
      h.withDefault (by simp [Record.slots])
    have hknown : withDefault d (fieldsOf ms) "known" false = some r.known :=
      h.withDefault (by simp [Record.slots])
    simp [ofTree?, hfields, hvendor, hproduct, hname, hicon, hscheme, hknown]

instance : Trimmable Device :=
  ⟨trimsRecord [.required String "vendor_id", .required String "product_id",
    .required String "location_id", .optional "product" (none : Option String),
    .optional "manufacturer" (none : Option String),
    .optional "serial_number" (none : Option String), .optional "transport" (none : Option String),
    .required Bool "built_in", .optional "usage_page" (none : Option UInt16),
    .optional "usage" (none : Option UInt16)]⟩

/-- The slots of a device. -/
def Device.slots (v : Device) : List Slot :=
  [⟨"vendor_id", v.vendorId, none⟩, ⟨"product_id", v.productId, none⟩,
    ⟨"location_id", v.locationId, none⟩, ⟨"product", v.product, some none⟩,
    ⟨"manufacturer", v.manufacturer, some none⟩, ⟨"serial_number", v.serialNumber, some none⟩,
    ⟨"transport", v.transport, some none⟩, ⟨"built_in", v.builtIn, none⟩,
    ⟨"usage_page", v.usagePage, some none⟩, ⟨"usage", v.usage, some none⟩]

theorem restores_device (v : Device) : Restores v := by
  have hnames : (v.slots.map Slot.name).Nodup := by simp [Device.slots]
  have htext (name s : String) : (⟨name, s, none⟩ : Slot).Sound :=
    Slot.sound_required (restores_string s)
  have htext? (name : String) (o : Option String) : (⟨name, o, some none⟩ : Slot).Sound :=
    Slot.sound_optional (restores_text? o) (restores_text? none)
  have husage (name : String) (o : Option UInt16) : (⟨name, o, some none⟩ : Slot).Sound :=
    Slot.sound_optional (restores_uInt16? o) (restores_uInt16? none)
  refine restores_record v.slots v.slots (List.Sublist.refl _) rfl rfl hnames ?_ fun ms h d => ?_
  · simp only [Device.slots, List.forall_mem_cons]
    exact ⟨htext _ _, htext _ _, htext _ _, htext? _ _, htext? _ _, htext? _ _, htext? _ _,
      Slot.sound_required (restores_bool _), husage _ _, husage _ _, by simp⟩
  · have hfields := h.fields? (d := d) ["vendor_id", "product_id", "location_id", "product",
      "manufacturer", "serial_number", "transport", "built_in", "usage_page", "usage"]
    have hread {α : Type} [Storable α] [Trimmable α] (name : String) (o : Option α)
        (hs : ⟨name, o, some none⟩ ∈ v.slots) : orAbsent d (fieldsOf ms) name = some o := by
      rw [orAbsent_fieldsOf]
      exact h.withDefault hs
    have hvendor : required d (fieldsOf ms) "vendor_id" = some v.vendorId :=
      h.required (by simp [Device.slots])
    have hproductId : required d (fieldsOf ms) "product_id" = some v.productId :=
      h.required (by simp [Device.slots])
    have hlocation : required d (fieldsOf ms) "location_id" = some v.locationId :=
      h.required (by simp [Device.slots])
    have hbuiltIn : required d (fieldsOf ms) "built_in" = some v.builtIn :=
      h.required (by simp [Device.slots])
    have hproduct := hread "product" v.product (by simp [Device.slots])
    have hmanufacturer := hread "manufacturer" v.manufacturer (by simp [Device.slots])
    have hserial := hread "serial_number" v.serialNumber (by simp [Device.slots])
    have htransport := hread "transport" v.transport (by simp [Device.slots])
    have hpage := hread "usage_page" v.usagePage (by simp [Device.slots])
    have husage := hread "usage" v.usage (by simp [Device.slots])
    simp [ofTree?, hfields, hvendor, hproductId, hlocation, hbuiltIn, hproduct, hmanufacturer,
      hserial, htransport, hpage, husage]

/-! ### Settings -/

instance : Trimmable Config :=
  ⟨trimsRecord [.optional "slot_limit" (5 : UInt64), .optional "disconnect_joy_keys" true,
    .optional "release_mouse_by_shaking" true, .optional "database_path" (none : Option String),
    .optional "port1" (none : Option UInt64), .optional "port2" (none : Option UInt64),
    .optional "keymaps" ({} : KeyMaps)]⟩

/-- The slots of the settings. -/
def Config.slots (c : Config) : List Slot :=
  [⟨"slot_limit", c.slotLimit, some 5⟩, ⟨"disconnect_joy_keys", c.disconnectKeys, some true⟩,
    ⟨"release_mouse_by_shaking", c.releaseMouseByShaking, some true⟩,
    ⟨"database_path", c.registerPath, some none⟩, ⟨"port1", c.port1, some none⟩,
    ⟨"port2", c.port2, some none⟩, ⟨"keymaps", c.keyMaps, some {}⟩]

theorem yields_config {c : Config} {ms : List (String × Tree)} (h : Yields c.slots ms)
    (d : Dialect) : ofTree? d (.record ms) = some c := by
  have hfields := h.fields? (d := d) ["slot_limit", "disconnect_joy_keys",
    "release_mouse_by_shaking", "database_path", "port1", "port2", "keymaps"]
  have hlimit : withDefault d (fieldsOf ms) "slot_limit" 5 = some c.slotLimit :=
    h.withDefault (by simp [Config.slots])
  have hdisconnect : withDefault d (fieldsOf ms) "disconnect_joy_keys" true =
      some c.disconnectKeys := h.withDefault (by simp [Config.slots])
  have hshaking : withDefault d (fieldsOf ms) "release_mouse_by_shaking" true =
      some c.releaseMouseByShaking := h.withDefault (by simp [Config.slots])
  have hpath : withDefault d (fieldsOf ms) "database_path" none = some c.registerPath :=
    h.withDefault (by simp [Config.slots])
  have hport1 : withDefault d (fieldsOf ms) "port1" none = some c.port1 :=
    h.withDefault (by simp [Config.slots])
  have hport2 : withDefault d (fieldsOf ms) "port2" none = some c.port2 :=
    h.withDefault (by simp [Config.slots])
  have hkeyMaps : withDefault d (fieldsOf ms) "keymaps" {} = some c.keyMaps :=
    h.withDefault (by simp [Config.slots])
  simp [ofTree?, hfields, hlimit, hdisconnect, hshaking, hpath, hport1, hport2, hkeyMaps]

theorem restores_config {c : Config} (h : ∀ id, (c.keyMaps.get id).OneKey) : Restores c := by
  have hnames : (c.slots.map Slot.name).Nodup := by simp [Config.slots]
  refine restores_record c.slots c.slots (List.Sublist.refl _) rfl rfl hnames ?_ fun ms h d =>
    yields_config h d
  simp only [Config.slots, List.forall_mem_cons]
  exact ⟨Slot.sound_optional (restores_uInt64 _) (restores_uInt64 _),
    Slot.sound_optional (restores_bool _) (restores_bool _),
    Slot.sound_optional (restores_bool _) (restores_bool _),
    Slot.sound_optional (restores_text? _) (restores_text? _),
    Slot.sound_optional (restores_uInt64? _) (restores_uInt64? _),
    Slot.sound_optional (restores_uInt64? _) (restores_uInt64? _),
    Slot.sound_optional (restores_keyMaps h) (restores_keyMaps KeyMap.oneKey_shipped), by simp⟩

end PadRouter

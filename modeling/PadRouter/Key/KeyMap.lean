import PadRouter.Action
import PadRouter.Key.Basic
import PadRouter.Table

/-!
# Key binding tables

A key has at most one action, since a table is a map, and an action has at most one key, since
`KeyMap.bind` first takes the action from the key that held it. Keys go by their codes; the
modifiers of a bound key are kept for display.

* `KeyMap` — a binding table, with `bind`, `unbind`, `unbindKey`, `lookup` and `keyFor?`.
* `KeyMap.bindings`, `KeyMap.ofBindings` — a table as a list of records, in the order of the codes.
* `KeyMaps` — the three tables, named by `KeyMapId`.
-/

namespace PadRouter

/-- One binding, as it is stored. -/
structure KeyBinding where
  key : Key
  action : Bindable
  deriving DecidableEq, Repr, Inhabited

/-- A binding table: the modifiers and the action of each bound code. -/
structure KeyMap where
  table : Table UInt16 (Modifiers × Bindable) := {}

namespace KeyMap

/-- The table without bindings. -/
def empty : KeyMap := {}

instance : Inhabited KeyMap := ⟨empty⟩

/-- The action bound to a key. -/
def lookup (m : KeyMap) (key : Key) : Option Bindable := (m.table.get? key.code).map (·.2)

/-- The table without any key for `action`. -/
def unbind (m : KeyMap) (action : Bindable) : KeyMap :=
  ⟨m.table.filter fun _ entry => entry.2 != action⟩

/-- The number of bindings. -/
def size (m : KeyMap) : Nat := m.table.size

/-- Whether nothing is bound. -/
def isEmpty (m : KeyMap) : Bool := m.table.isEmpty

/-- How many keys `unbind` takes away. -/
def countBound (m : KeyMap) (action : Bindable) : Nat := m.size - (m.unbind action).size

/-- Binds `key` to `action` and takes the action from any other key. A code that is still bound
after that keeps the modifiers it was bound with and changes its action only. -/
def bind (m : KeyMap) (key : Key) (action : Bindable) : KeyMap :=
  let rest := (m.unbind action).table
  let modifiers := ((rest.get? key.code).map (·.1)).getD key.modifiers
  ⟨rest.insert key.code (modifiers, action)⟩

/-- The table without a binding for the code of `key`. -/
def unbindKey (m : KeyMap) (key : Key) : KeyMap := ⟨m.table.erase key.code⟩

/-- The key bound to an action. -/
def keyFor? (m : KeyMap) (action : Bindable) : Option Key :=
  (m.table.find? fun _ entry => entry.2 == action).map fun e => ⟨e.1, e.2.1⟩

/-- The bindings, in the order of their codes. -/
def bindings (m : KeyMap) : List KeyBinding :=
  m.table.entries.map fun e => ⟨⟨e.1, e.2.1⟩, e.2.2⟩

/-- The table that arises when the records of a list are bound one after the other. -/
def ofBindings (l : List KeyBinding) : KeyMap := l.foldl (fun m b => m.bind b.key b.action) empty

/-- Whether two tables bind the same codes to the same actions, whatever the modifiers. -/
def agrees (a b : KeyMap) : Bool :=
  a.bindings.map (fun e => (e.key.code, e.action)) ==
    b.bindings.map fun e => (e.key.code, e.action)

/-- The table that binds plain keys. -/
def ofPairs (pairs : List (UInt16 × Bindable)) : KeyMap :=
  ofBindings (pairs.map fun p => ⟨{ code := p.1 }, p.2⟩)

/-- Key set 1 as it is shipped: the cursor keys and the space bar. -/
def keyset1 : KeyMap :=
  ofPairs [(0x7B, .pullLeft), (0x7C, .pullRight), (0x7E, .pullUp), (0x7D, .pullDown),
    (0x31, .pressFire)]

/-- Key set 2 as it is shipped: S, D, E and X for the directions, C for fire. -/
def keyset2 : KeyMap :=
  ofPairs [(0x01, .pullLeft), (0x02, .pullRight), (0x0E, .pullUp), (0x07, .pullDown),
    (0x08, .pressFire)]

end KeyMap

/-- Names the three binding tables. -/
inductive KeyMapId
  | mouse
  | keyset1
  | keyset2
  deriving DecidableEq, Repr, Inhabited

namespace KeyMapId

/-- The names, in the order of their numbers. -/
def all : List KeyMapId := [mouse, keyset1, keyset2]

/-- The number of a table. -/
def index : KeyMapId → Nat
  | mouse => 0
  | keyset1 => 1
  | keyset2 => 2

/-- The word for a table. -/
def name : KeyMapId → String
  | mouse => "mouse"
  | keyset1 => "keyset1"
  | keyset2 => "keyset2"

/-- The table with a name. -/
def ofName? (s : String) : Option KeyMapId := all.find? fun id => id.name == s

theorem ofName?_name (id : KeyMapId) : ofName? id.name = some id := by cases id <;> decide +kernel

end KeyMapId

/-- The binding tables of all pads that keys can drive. -/
structure KeyMaps where
  mouse : KeyMap := .empty
  keyset1 : KeyMap := .keyset1
  keyset2 : KeyMap := .keyset2
  deriving Inhabited

namespace KeyMaps

/-- The table with a name. -/
def get (maps : KeyMaps) : KeyMapId → KeyMap
  | .mouse => maps.mouse
  | .keyset1 => maps.keyset1
  | .keyset2 => maps.keyset2

/-- Replaces the table with a name. -/
def set (maps : KeyMaps) (id : KeyMapId) (m : KeyMap) : KeyMaps :=
  match id with
  | .mouse => { maps with mouse := m }
  | .keyset1 => { maps with keyset1 := m }
  | .keyset2 => { maps with keyset2 := m }

/-- Restores one table to its shipped bindings. -/
def reset (maps : KeyMaps) (id : KeyMapId) : KeyMaps := maps.set id (KeyMaps.get {} id)

/-- Whether all three tables agree. -/
def agrees (a b : KeyMaps) : Bool := KeyMapId.all.all fun id => (a.get id).agrees (b.get id)

@[simp]
theorem get_set_self (maps : KeyMaps) (id : KeyMapId) (m : KeyMap) : (maps.set id m).get id = m := by
  cases id <;> rfl

theorem get_set_of_ne (maps : KeyMaps) {id id' : KeyMapId} (m : KeyMap) (h : id' ≠ id) :
    (maps.set id m).get id' = maps.get id' := by
  cases id <;> cases id' <;> first | rfl | exact absurd rfl h

end KeyMaps

end PadRouter

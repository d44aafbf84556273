/-!
# Trees

What a JSON or a TOML text says, before anyone asks what it means.

* `Tree` — a value that describes itself.
* `Dialect` — the two points in which the formats differ when a tree is read as a record.
* `Tree.fields?` — a tree as a record with named fields, each at most once.
* `Storable α` — how an `α` is written as a tree and read back.
-/

namespace PadRouter

/-- A leaf that is well formed but that no reader takes. -/
inductive Foreign
  /-- A number that is not written as an integer. -/
  | fraction
  /-- A date or a time. -/
  | moment
  /-- A text with half a surrogate pair, or a record with such a name. -/
  | garbled
  deriving DecidableEq, Repr, Inhabited

/-- A value that describes itself. -/
inductive Tree
  | null
  | bool (b : Bool)
  | int (n : Int)
  | text (s : String)
  | list (items : List Tree)
  | record (members : List (String × Tree))
  | foreign (kind : Foreign)
  deriving Repr, Inhabited

/-- What a format makes of a tree in the two points where formats differ. -/
structure Dialect where
  /-- Whether a record that is written as a list may have items beyond its last field. -/
  surplus : Bool
  /-- What may stand behind a name that is written as a record of one member. -/
  unit : Tree → Bool

/-- A tree seen as a record. -/
structure Fields where
  /-- Whether the record is written as a list. -/
  positional : Bool
  /-- The tree that stands for a field. -/
  get? : String → Option Tree

namespace Tree

/-- The value of the first member with a name. -/
def member? (name : String) : List (String × Tree) → Option Tree
  | [] => none
  | (n, t) :: rest => if n = name then some t else member? name rest

/-- How often a name occurs among members. -/
def occurrences (name : String) (members : List (String × Tree)) : Nat :=
  members.countP fun m => m.1 == name

/-- The item that stands for a field in a record written as a list. -/
def item? (name : String) : List String → List Tree → Option Tree
  | n :: names, t :: items => if n = name then some t else item? name names items
  | _, _ => none

/-- A tree as a record with these fields. A field may be missing but not stand twice; members with
other names are passed over. A list gives the fields in order, and a moment gives none of them. -/
def fields? (d : Dialect) (names : List String) : Tree → Option Fields
  | record members =>
    if names.all fun n => occurrences n members ≤ 1 then
      some ⟨false, fun n => member? n members⟩
    else none
  | list items =>
    if d.surplus || items.length ≤ names.length then
      some ⟨true, fun n => item? n names items⟩
    else none
  | foreign .moment => some ⟨false, fun _ => none⟩
  | _ => none

/-- A tree as a name: a text, or a record of one member without content. -/
def name? (d : Dialect) : Tree → Option String
  | text s => some s
  | record [(s, t)] => if d.unit t then some s else none
  | _ => none

/-- A tree as a number from `0` to `bound`. -/
def nat? (bound : Nat) : Tree → Option Nat
  | int (.ofNat n) => if n ≤ bound then some n else none
  | _ => none

end Tree

/-- How an `α` is written as a tree and read back. -/
class Storable (α : Type) where
  toTree : α → Tree
  ofTree? : Dialect → Tree → Option α

export Storable (toTree)

namespace Storable

/-- Reads a field that has to be there. -/
def required {α : Type} [Storable α] (d : Dialect) (fs : Fields) (name : String) : Option α :=
  fs.get? name >>= ofTree? d

/-- Reads a field that has a default. -/
def withDefault {α : Type} [Storable α] (d : Dialect) (fs : Fields) (name : String) (default : α) :
    Option α :=
  match fs.get? name with
  | some t => ofTree? d t
  | none => some default

/-- Reads a field that is absent where a record with names leaves it out. -/
def orAbsent {α : Type} [Storable α] (d : Dialect) (fs : Fields) (name : String) :
    Option (Option α) :=
  match fs.get? name, fs.positional with
  | some .null, _ => some none
  | some t, _ => (ofTree? d t).map some
  | none, false => some none
  | none, true => none

instance : Storable Bool where
  toTree := .bool
  ofTree?
    | _, .bool b => some b
    | _, _ => none

instance : Storable String where
  toTree := .text
  ofTree?
    | _, .text s => some s
    | _, _ => none

instance : Storable UInt16 where
  toTree n := .int n.toNat
  ofTree? _ t := (t.nat? 0xFFFF).map UInt16.ofNat

instance : Storable UInt64 where
  toTree n := .int n.toNat
  ofTree? _ t := (t.nat? 0xFFFFFFFFFFFFFFFF).map UInt64.ofNat

instance {α : Type} [Storable α] : Storable (Option α) where
  toTree
    | some a => toTree a
    | none => .null
  ofTree?
    | _, .null => some none
    | d, t => (ofTree? d t).map some

instance {α : Type} [Storable α] : Storable (List α) where
  toTree l := .list (l.map toTree)
  ofTree?
    | d, .list items => items.mapM (ofTree? d)
    | _, _ => none

end Storable

end PadRouter

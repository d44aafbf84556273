/-!
# Mapping schemes

Pads disagree on which elements carry the sticks and the directional pad. A scheme answers this for
one device model by three independent selectors, each stored as a small number; number `0` stands
for a device nobody has described.

* `LeftStick`, `RightStick`, `Hat` — the selectors, with their numbers and labels.
* `Scheme` — one selector of each kind.
* `Scheme.ofRaw?` — reads three numbers and names the first one that selects nothing.
-/

namespace PadRouter

/-- Where the primary stick lives. -/
inductive LeftStick
  /-- X and Y. -/
  | a0a1
  /-- X and Y, the vertical axis reversed. -/
  | a0a1r
  /-- Rx and Ry. -/
  | a3a4
  deriving DecidableEq, Repr, Inhabited

/-- Where the secondary stick lives. -/
inductive RightStick
  /-- Z and Rz. -/
  | a2a5
  /-- Z and Rx, the vertical axis reversed. -/
  | a2a3
  /-- The elements of the secondary stick stay unused. -/
  | a3a4
  /-- Z and Rz, the vertical axis reversed. -/
  | a2a5r
  deriving DecidableEq, Repr, Inhabited

/-- How the directional pad is encoded. -/
inductive Hat
  /-- A hat switch that counts its positions from 0. -/
  | h0h7
  /-- A hat switch that counts its positions from 1. -/
  | h1h8
  /-- Buttons 5 to 8: up, right, down, left. -/
  | b4b7
  /-- Buttons 12 to 15: up, down, left, right. -/
  | b11b14
  /-- Four elements of their own: up, down, right, left. -/
  | u90u93
  deriving DecidableEq, Repr, Inhabited

/-- The three kinds of selectors. -/
inductive SelectorKind
  | left
  | right
  | hat
  deriving DecidableEq, Repr, Inhabited

/-- The word for a kind of selectors. -/
def SelectorKind.name : SelectorKind → String
  | left => "left"
  | right => "right"
  | hat => "hat"

namespace LeftStick

/-- All layouts, in the order of their numbers. -/
def all : List LeftStick := [a0a1, a0a1r, a3a4]

/-- The number of a layout. -/
def index : LeftStick → Nat
  | a0a1 => 0
  | a0a1r => 1
  | a3a4 => 2

/-- The label of a layout. -/
def label : LeftStick → String
  | a0a1 => "A0A1"
  | a0a1r => "A0A1r"
  | a3a4 => "A3A4"

/-- The layout with a number. -/
def ofIndex? (n : Nat) : Option LeftStick := all.find? fun l => l.index == n

theorem ofIndex?_index (l : LeftStick) : ofIndex? l.index = some l := by cases l <;> rfl

end LeftStick

namespace RightStick

/-- All layouts, in the order of their numbers. -/
def all : List RightStick := [a2a5, a2a3, a3a4, a2a5r]

/-- The number of a layout. -/
def index : RightStick → Nat
  | a2a5 => 0
  | a2a3 => 1
  | a3a4 => 2
  | a2a5r => 3

/-- The label of a layout. -/
def label : RightStick → String
  | a2a5 => "A2A5"
  | a2a3 => "A2A3"
  | a3a4 => "A3A4"
  | a2a5r => "A2A5r"

/-- The layout with a number. -/
def ofIndex? (n : Nat) : Option RightStick := all.find? fun r => r.index == n

theorem ofIndex?_index (r : RightStick) : ofIndex? r.index = some r := by cases r <;> rfl

end RightStick

namespace Hat

/-- All encodings, in the order of their numbers. -/
def all : List Hat := [h0h7, h1h8, b4b7, b11b14, u90u93]

/-- The number of an encoding. -/
def index : Hat → Nat
  | h0h7 => 0
  | h1h8 => 1
  | b4b7 => 2
  | b11b14 => 3
  | u90u93 => 4

/-- The label of an encoding. -/
def label : Hat → String
  | h0h7 => "H0H7"
  | h1h8 => "H1H8"
  | b4b7 => "B4B7"
  | b11b14 => "B11B14"
  | u90u93 => "U90U93"

/-- The encoding with a number. -/
def ofIndex? (n : Nat) : Option Hat := all.find? fun h => h.index == n

theorem ofIndex?_index (h : Hat) : ofIndex? h.index = some h := by cases h <;> rfl

end Hat

/-- The three selectors of one device model. -/
structure Scheme where
  left : LeftStick := .a0a1
  right : RightStick := .a2a5
  hat : Hat := .h0h7
  deriving DecidableEq, Repr, Inhabited

/-- A number that selects nothing. -/
structure SelectorError where
  kind : SelectorKind
  value : Nat
  deriving DecidableEq, Repr

/-- The wording of the error. -/
def SelectorError.message (e : SelectorError) : String :=
  "unknown " ++ e.kind.name ++ " scheme selector " ++ toString e.value

namespace Scheme

/-- The scheme with these numbers; of several numbers out of range the first one is reported. -/
def ofRaw? (left right hat : Nat) : Except SelectorError Scheme := do
  let l ← (LeftStick.ofIndex? left).elim (.error ⟨.left, left⟩) .ok
  let r ← (RightStick.ofIndex? right).elim (.error ⟨.right, right⟩) .ok
  let h ← (Hat.ofIndex? hat).elim (.error ⟨.hat, hat⟩) .ok
  return ⟨l, r, h⟩

/-- The labels of the selectors. -/
def labels (s : Scheme) : List String := [s.left.label, s.right.label, s.hat.label]

/-- The scheme as it is shown: its labels with slashes between them. -/
def display (s : Scheme) : String := "/".intercalate s.labels

/-- The scheme as it stands in notices. -/
def describe (s : Scheme) : String :=
  "MappingScheme \x7b left: " ++ s.left.label ++ ", right: " ++ s.right.label ++ ", hat: " ++
    s.hat.label ++ " \x7d"

theorem ofRaw?_index (s : Scheme) :
    ofRaw? s.left.index s.right.index s.hat.index = .ok s := by
  simp [ofRaw?, LeftStick.ofIndex?_index, RightStick.ofIndex?_index, Hat.ofIndex?_index, pure,
    Except.pure, bind, Except.bind]

end Scheme

end PadRouter

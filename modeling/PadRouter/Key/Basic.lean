import PadRouter.Text.Hex

/-!
# Keys

* `Modifiers` — the modifier flags that were down when a key was captured.
* `Key` — a key code with its modifiers. Bindings go by the code alone.
* `Key.display` — the key as it is shown.
-/

namespace PadRouter

/-- The modifier flags captured with a key. -/
structure Modifiers where
  shift : Bool := false
  control : Bool := false
  option : Bool := false
  command : Bool := false
  deriving DecidableEq, Repr, Inhabited

/-- Whether no flag is on. -/
def Modifiers.isEmpty (m : Modifiers) : Bool := m == {}

/-- A key on the host keyboard. -/
structure Key where
  code : UInt16
  modifiers : Modifiers := {}
  deriving DecidableEq, Repr, Inhabited

namespace Key

/-- The key with its flags cleared. -/
def plain (k : Key) : Key := { code := k.code }

/-- Whether two keys are the same key for a binding table. -/
def sameCode (a b : Key) : Bool := a.code == b.code

/-- The flags that are on, then the code in hexadecimal. -/
def display (k : Key) : String :=
  let flags := [(k.modifiers.control, "ctrl+"), (k.modifiers.option, "opt+"),
    (k.modifiers.shift, "shift+"), (k.modifiers.command, "cmd+")]
  String.join (flags.filterMap fun f => if f.1 then some f.2 else none) ++
    "0x" ++ Text.hex 2 k.code.toNat

end Key

end PadRouter

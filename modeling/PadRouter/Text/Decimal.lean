/-!
# Floating-point numbers as text

A number is written with the fewest decimal digits that read back as the same number, and of those
with the nearest ones. There is no exponent, and no point in a whole number.

* `Decimal.Binary` — a finite number as mantissa and power of two, with the interval of reals that
  round to it.
* `Decimal.shortest` — its shortest digits and the power of ten they are multiplied with.
* `Decimal.render` — the text of a number.
-/

namespace PadRouter.Decimal

/-- The number `mantissa * 2 ^ exponent`, and whether its lower neighbour is only half as far away
as its upper one. -/
structure Binary where
  mantissa : Nat
  exponent : Int
  narrow : Bool

/-- The size of a finite number, whatever its sign. -/
def Binary.ofBits (bits : UInt64) : Binary :=
  let fraction := bits.toNat % 0x10000000000000
  match bits.toNat / 0x10000000000000 % 0x800 with
  | 0 => ⟨fraction, -1074, false⟩
  | e + 1 => ⟨fraction + 0x10000000000000, e - 1074, fraction = 0 && e != 0⟩

namespace Binary

/-- The number itself. -/
def value (b : Binary) : Rat := b.mantissa * Rat.zpow 2 b.exponent

/-- Whether a rational number rounds to this one; a tie goes to an even mantissa. -/
def covers (b : Binary) (q : Rat) : Bool :=
  let half := Rat.zpow 2 (b.exponent - 1)
  let low := b.value - (if b.narrow then half / 2 else half)
  let high := b.value + half
  if b.mantissa % 2 = 0 then low ≤ q && q ≤ high else low < q && q < high

end Binary

/-- The multiple of `10 ^ e` that is nearest to the number among those that round to it. -/
def onGrid? (b : Binary) (e : Int) : Option Nat :=
  let unit := Rat.zpow 10 e
  let below := (b.value / unit).floor.toNat
  let gap (n : Nat) : Rat := (n * unit - b.value).abs
  match b.covers (below * unit), b.covers ((below + 1 : Nat) * unit) with
  | true, true => some (if gap (below + 1) < gap below then below + 1 else below)
  | true, false => some below
  | false, true => some (below + 1)
  | false, false => none

/-- The exponents of ten that are tried, the largest first. -/
def exponents : List Int := (List.range 650).map fun n : Nat => (310 - n : Int)

/-- The shortest digits of a number that is not zero, and the power of ten for them. -/
def shortest (b : Binary) : Nat × Int :=
  (exponents.findSome? fun e =>
    match onGrid? b e with
    | some n => if n = 0 then none else some (n, e)
    | none => none).getD (0, 0)

/-- Digits multiplied with a power of ten, in positional notation. -/
def positional (n : Nat) : Int → List Char
  | .ofNat e => Nat.toDigits 10 n ++ List.replicate e '0'
  | .negSucc e =>
    let places := e + 1
    let digits := Nat.toDigits 10 n
    let digits := List.replicate (places + 1 - digits.length) '0' ++ digits
    digits.take (digits.length - places) ++ '.' :: digits.drop (digits.length - places)

/-- The text of a number; zero keeps its sign. -/
def render (x : Float) : String :=
  let sign := if x.toBits.toNat < 0x8000000000000000 then "" else "-"
  if x.isNaN then "NaN"
  else if x.isInf then sign ++ "inf"
  else if x == 0 then sign ++ "0"
  else
    let digits := shortest (.ofBits x.toBits)
    sign ++ String.ofList (positional digits.1 digits.2)

end PadRouter.Decimal

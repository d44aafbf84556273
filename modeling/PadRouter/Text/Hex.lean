/-!
# Hexadecimal digits

* `Text.hexDigits` — the lower-case digits of a number, filled up with zeros to a least width.
* `Text.hexValue?` — the value of one digit, of either case.
-/

namespace PadRouter.Text

/-- The lower-case hexadecimal digits of `n`, with zeros in front up to `width` digits. -/
def hexDigits (width n : Nat) : List Char :=
  let digits := Nat.toDigits 16 n
  List.replicate (width - digits.length) '0' ++ digits

/-- `hexDigits` as a string. -/
def hex (width n : Nat) : String := String.ofList (hexDigits width n)

/-- The value of a hexadecimal digit. -/
def hexValue? (c : Char) : Option Nat :=
  if '0' ≤ c ∧ c ≤ '9' then some (c.toNat - '0'.toNat)
  else if 'a' ≤ c ∧ c ≤ 'f' then some (c.toNat - 'a'.toNat + 10)
  else if 'A' ≤ c ∧ c ≤ 'F' then some (c.toNat - 'A'.toNat + 10)
  else none

end PadRouter.Text

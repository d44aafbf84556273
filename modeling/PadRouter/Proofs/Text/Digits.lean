import Mathlib.Data.List.Basic
import Mathlib.Tactic.SplitIfs
import PadRouter.Text.Hex

/-!
# Digits

* `Text.no_needless_zero` — decimal digits have no needless zero in front.
* `Text.toList_toString` — the text of a number in terms of its digits.
* `Text.hexDigits_of_control` — the hexadecimal digits of a control character.
-/

namespace PadRouter.Text

theorem isDigit_of_mem_toDigits {n : Nat} {c : Char} (hc : c ∈ Nat.toDigits 10 n) :
    c.isDigit = true := Nat.isDigit_of_mem_toDigits (by decide) (by decide) hc

/-- Only zero is written with a zero in front. -/
theorem eq_zero_of_head_toDigits (n : Nat) (h : (Nat.toDigits 10 n).head? = some '0') : n = 0 := by
  induction n using Nat.strongRecOn with
  | ind n ih =>
    by_cases hn : n < 10
    · rw [Nat.toDigits_of_lt_base hn] at h
      simpa using h
    · rw [Nat.toDigits_of_base_le (by decide) (by omega),
        List.head?_append_of_ne_nil _ Nat.toDigits_ne_nil] at h
      have hzero := ih (n / 10) (by omega) h
      omega

/-- Only zero is written with a zero in front, and then alone. -/
theorem no_needless_zero (n : Nat) :
    ((Nat.toDigits 10 n).head? == some '0' && (Nat.toDigits 10 n).length != 1) = false := by
  by_cases hn : n = 0
  · simp [hn]
  · have hhead : (Nat.toDigits 10 n).head? ≠ some '0' := fun h => hn (eq_zero_of_head_toDigits n h)
    simp [hhead]

/-- A number is written with its digits, and with a sign in front if it is negative. -/
theorem toList_toString (n : Int) :
    (toString n).toList =
      if 0 ≤ n then Nat.toDigits 10 n.toNat else '-' :: Nat.toDigits 10 (-n).toNat := by
  rw [Int.toString_eq_repr, Int.repr_eq_if]
  split_ifs
  · rw [Nat.toList_repr]
  · rw [String.toList_append, Nat.toList_repr]
    rfl

/-! ### Hexadecimal digits -/

theorem hexDigits_of_control : ∀ n < 32, hexDigits 4 n =
    ['0', '0', Nat.digitChar (n / 16), Nat.digitChar (n % 16)] := by decide

theorem hexValue?_digitChar : ∀ d < 16, hexValue? (Nat.digitChar d) = some d := by decide

end PadRouter.Text

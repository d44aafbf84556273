import Mathlib.Data.List.Basic
import Mathlib.Data.List.TakeWhile
import Mathlib.Tactic.SplitIfs
import PadRouter.Json.Parser
import PadRouter.Json.Printer
import PadRouter.Proofs.Text.Digits
import PadRouter.Proofs.Text.Scan

/-!
# Reading back JSON leaves

What is written for a text, a number or a word is read as this text, number or word, whatever stands
behind it, as long as that does not prolong it.

* `Json.quoted_quote` — quoted texts, with all their escapes.
* `Json.number_toString` — numbers of any size and sign.
* `Json.literal_leaf` — the three words.
-/

namespace PadRouter.Json

/-! ### Texts -/

/-- What is read with one more piece in front. -/
def withPiece (p : Piece) (r : List Piece × List Char) : List Piece × List Char := (p :: r.1, r.2)

theorem unit?_of_control {n : Nat} (h : n < 32) :
    unit? '0' '0' (Nat.digitChar (n / 16)) (Nat.digitChar (n % 16)) = some n := by
  have hzero : Text.hexValue? '0' = some 0 := by decide
  have hhigh := Text.hexValue?_digitChar (n / 16) (by omega)
  have hlow := Text.hexValue?_digitChar (n % 16) (by omega)
  simp only [unit?, hzero, hhigh, hlow]
  simp
  omega

theorem pieces?_short {e c : Char} (he : shortEscape? e = some c) (hu : e ≠ 'u') (cs : List Char) :
    pieces? ('\\' :: e :: cs) = (pieces? cs).map (withPiece (.char c)) := by
  rw [pieces?.eq_4 _ _ (fun _ _ _ _ _ h => absurd h hu), he]
  cases pieces? cs <;> rfl

theorem pieces?_control {c : Char} (h : c.toNat < 32) (cs : List Char) :
    pieces? ('\\' :: 'u' :: (Text.hexDigits 4 c.toNat ++ cs)) =
      (pieces? cs).map (withPiece (.unit c.toNat)) := by
  rw [Text.hexDigits_of_control _ h]
  simp only [List.cons_append, List.nil_append, pieces?, unit?_of_control h]
  cases pieces? cs <;> rfl

theorem pieces?_plain {c : Char} (hq : c ≠ '"') (hb : c ≠ '\\') (hc : ¬ c < ' ') (cs : List Char) :
    pieces? (c :: cs) = (pieces? cs).map (withPiece (.char c)) := by
  rw [pieces?.eq_5 c cs hq (fun _ _ _ _ _ h => absurd h hb) (fun _ _ h => absurd h hb)]
  rw [if_neg (by simp [hb, hc])]
  cases pieces? cs <;> rfl

/-- A character is written with a short escape, as a code unit, or as it is. -/
theorem escape_cases (c : Char) :
    (∃ e, shortEscape? e = some c ∧ e ≠ 'u' ∧ escape c = ['\\', e]) ∨
      (c.toNat < 32 ∧ escape c = '\\' :: 'u' :: Text.hexDigits 4 c.toNat) ∨
      (c ≠ '"' ∧ c ≠ '\\' ∧ ¬ c < ' ' ∧ escape c = [c]) := by
  unfold escape
  split_ifs with hq hb h8 h9 ha hc hd hcontrol
  · exact .inl ⟨'"', by subst hq; decide, by decide, rfl⟩
  · exact .inl ⟨'\\', by subst hb; decide, by decide, rfl⟩
  · exact .inl ⟨'b', by subst h8; decide, by decide, rfl⟩
  · exact .inl ⟨'t', by subst h9; decide, by decide, rfl⟩
  · exact .inl ⟨'n', by subst ha; decide, by decide, rfl⟩
  · exact .inl ⟨'f', by subst hc; decide, by decide, rfl⟩
  · exact .inl ⟨'r', by subst hd; decide, by decide, rfl⟩
  · exact .inr (.inl ⟨hcontrol, rfl⟩)
  · exact .inr (.inr ⟨hq, hb, hcontrol, rfl⟩)

theorem chars?_unit {n : Nat} {ps : List Piece} (hhigh : isHigh n = false)
    (hlow : isLow n = false) : chars? (.unit n :: ps) = (chars? ps).map (Char.ofNat n :: ·) := by
  cases ps with
  | nil => simp [chars?, hhigh, hlow]
  | cons p ps => cases p <;> simp [chars?, hhigh, hlow]

/-- The text of a character is read as one piece, which stands for this character. -/
theorem pieces?_escape (c : Char) :
    ∃ p, (∀ ps, chars? (p :: ps) = (chars? ps).map (c :: ·)) ∧
      ∀ cs, pieces? (escape c ++ cs) = (pieces? cs).map (withPiece p) := by
  obtain ⟨e, he, hu, hc⟩ | ⟨hcontrol, hc⟩ | ⟨hq, hb, hcontrol, hc⟩ := escape_cases c
  · exact ⟨.char c, fun ps => rfl, fun cs => hc ▸ pieces?_short he hu cs⟩
  · refine ⟨.unit c.toNat, fun ps => ?_, fun cs => hc ▸ pieces?_control hcontrol cs⟩
    have hhigh : isHigh c.toNat = false := by simp [isHigh]; omega
    have hlow : isLow c.toNat = false := by simp [isLow]; omega
    rw [chars?_unit hhigh hlow, Char.ofNat_toNat]
  · exact ⟨.char c, fun ps => rfl, fun cs => hc ▸ pieces?_plain hq hb hcontrol cs⟩

theorem pieces?_escapes (l rest : List Char) :
    ∃ ps, pieces? (l.flatMap escape ++ '"' :: rest) = some (ps, rest) ∧ chars? ps = some l := by
  induction l with
  | nil => exact ⟨[], by simp [pieces?], rfl⟩
  | cons c l ih =>
    obtain ⟨ps, hps, hl⟩ := ih
    obtain ⟨p, hp, hread⟩ := pieces?_escape c
    refine ⟨p :: ps, ?_, by rw [hp, hl]; rfl⟩
    rw [List.flatMap_cons, List.append_assoc, hread, hps]
    rfl

/-- A quoted text is read as this text. -/
theorem quoted_quote (s : String) (rest : List Char) :
    quoted (quote s ++ rest) = some (some s, rest) := by
  obtain ⟨ps, hps, hs⟩ := pieces?_escapes s.toList rest
  unfold quoted quote
  rw [List.cons_append, List.cons_append, List.append_assoc, Scan.bind_of_some (Scan.char_cons _ _)]
  rw [List.cons_append, List.nil_append,
    Scan.bind_of_some hps, hs]
  simp only [Option.map_some, String.ofList_toList]
  rfl


/-! ### Numbers -/

theorem decimalValue_toDigits (n : Nat) : decimalValue (Nat.toDigits 10 n) = n := by
  have hsteps (digits : List Char) : decimalValue digits = Nat.ofDigitChars 10 digits 0 := by
    rw [Nat.ofDigitChars_eq_foldl, decimalValue]
    congr 1
    funext k c
    rw [Nat.mul_comm]
  rw [hsteps, Nat.ofDigitChars_ten_toDigits]

theorem numberOf?_toDigits (negative : Bool) (n : Nat) :
    numberOf? negative (Nat.toDigits 10 n) =
      if !negative then some (.int n)
      else if n = 0 then some (.foreign .fraction) else some (.int (-n)) := by
  have hall : ∀ c ∈ Nat.toDigits 10 n, c.isDigit = true := fun c hc => Text.isDigit_of_mem_toDigits hc
  unfold numberOf?
  rw [List.takeWhile_eq_self_iff.2 hall, List.dropWhile_eq_nil_iff.2 hall]
  simp [Text.no_needless_zero, decimalValue_toDigits]

theorem isNumeral_of_isDigit {c : Char} (h : c.isDigit = true) : isNumeral c = true := by
  simp [isNumeral, h]

theorem liftM_apply (r : Option Tree) (rest : List Char) :
    (liftM r : Scan Tree) rest = r.map fun t => (t, rest) := by
  cases r <;> rfl

section

variable {cs rest : List Char}

/-- Digits are read as a number without a sign. -/
theorem number_digits (hne : cs ≠ []) (hall : ∀ c ∈ cs, c.isDigit = true)
    (hrest : ∀ c ∈ rest.head?, isNumeral c = false) :
    number (cs ++ rest) = (numberOf? false cs).map fun t => (t, rest) := by
  have hnumerals : ∀ c ∈ cs, isNumeral c = true := fun c hc => isNumeral_of_isDigit (hall c hc)
  unfold number
  rw [Scan.bind_of_some (Scan.takeWhile1_append hne hnumerals hrest)]
  split
  · exact absurd (hall '-' List.mem_cons_self) (by decide)
  · exact liftM_apply _ rest

/-- Digits behind a minus sign are read as a number below zero. -/
theorem number_minus (hall : ∀ c ∈ cs, c.isDigit = true)
    (hrest : ∀ c ∈ rest.head?, isNumeral c = false) :
    number ('-' :: cs ++ rest) = (numberOf? true cs).map fun t => (t, rest) := by
  have hnumerals : ∀ c ∈ '-' :: cs, isNumeral c = true :=
    List.forall_mem_cons.2 ⟨rfl, fun c hc => isNumeral_of_isDigit (hall c hc)⟩
  unfold number
  rw [Scan.bind_of_some (Scan.takeWhile1_append (List.cons_ne_nil _ _) hnumerals hrest)]
  exact liftM_apply _ rest

end

/-- The text of a number begins with a numeral. -/
theorem exists_numeral_toString (n : Int) :
    ∃ c cs, (toString n).toList = c :: cs ∧ isNumeral c = true := by
  rw [Text.toList_toString]
  split_ifs
  · obtain ⟨c, cs, hcs⟩ := List.exists_cons_of_ne_nil (Nat.toDigits_ne_nil (n := n.toNat) (b := 10))
    have hc : c ∈ Nat.toDigits 10 n.toNat := hcs ▸ List.mem_cons_self
    exact ⟨c, cs, hcs, isNumeral_of_isDigit (Text.isDigit_of_mem_toDigits hc)⟩
  · exact ⟨'-', _, rfl, rfl⟩

/-- A number is read as this number where no further numeral stands behind it. -/
theorem number_toString (n : Int) {rest : List Char}
    (hrest : ∀ c ∈ rest.head?, isNumeral c = false) :
    number ((toString n).toList ++ rest) = some (.int n, rest) := by
  have hdigits (n : Nat) : ∀ c ∈ Nat.toDigits 10 n, c.isDigit = true := fun c hc =>
    Text.isDigit_of_mem_toDigits hc
  rw [Text.toList_toString]
  split_ifs with hn
  · rw [number_digits Nat.toDigits_ne_nil (hdigits _) hrest, numberOf?_toDigits]
    simp only [Bool.not_false, if_true, Int.toNat_of_nonneg hn, Option.map_some]
  · rw [number_minus (hdigits _) hrest, numberOf?_toDigits, if_neg (by simp), if_neg (by omega),
      Int.toNat_of_nonneg (by omega), Int.neg_neg]
    rfl

/-! ### Words -/

/-- A word is read as its leaf where no further letter stands behind it. -/
theorem literal_leaf {t : Tree} (ht : t = .null ∨ ∃ b, t = .bool b) {rest : List Char}
    (hrest : ∀ c ∈ rest.head?, c.isAlpha = false) :
    literal (leaf t ++ rest) = some (t, rest) := by
  have hword (t : Tree) (hne : leaf t ≠ []) (hall : (leaf t).all Char.isAlpha = true) :
      Scan.takeWhile1 Char.isAlpha (leaf t ++ rest) = some (leaf t, rest) :=
    Scan.takeWhile1_append hne (List.all_eq_true.1 hall) hrest
  unfold literal
  obtain rfl | ⟨_ | _, rfl⟩ := ht
  · rw [Scan.bind_of_some (hword .null (List.cons_ne_nil _ _) rfl)]
    rfl
  · rw [Scan.bind_of_some (hword (.bool false) (List.cons_ne_nil _ _) rfl)]
    rfl
  · rw [Scan.bind_of_some (hword (.bool true) (List.cons_ne_nil _ _) rfl)]
    rfl

end PadRouter.Json

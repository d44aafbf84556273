import PadRouter.Proofs.Text.Digits
import PadRouter.Proofs.Toml.Texts

/-!
# Reading back TOML names and values

* `Toml.name_writeName` — a name, bare or in quotes.
* `Toml.integer?_toString` — an integer, if it has 64 bits with a sign.
* `Toml.Inline` — the values that are written on one line.
* `Toml.value_writeValue` — such a value is read back.
-/

namespace PadRouter.Toml

variable {cs rest : List Char} {c : Char}

/-! ### Integers -/

theorem digits?_of_forall (hne : cs ≠ []) (hall : ∀ c ∈ cs, c.isDigit = true) :
    digits? Char.isDigit cs = some cs := by
  induction cs with
  | nil => contradiction
  | cons c cs ih =>
    obtain ⟨hc, hcs⟩ := List.forall_mem_cons.1 hall
    cases cs with
    | nil => simp [digits?, hc]
    | cons d cs =>
      have hd : d ≠ '_' := by
        rintro rfl
        exact absurd (hcs '_' List.mem_cons_self) (by decide)
      rw [digits?.eq_4 _ _ _ (by simp) (by simpa using fun h => absurd h hd), if_pos hc,
        ih (List.cons_ne_nil _ _) hcs]
      rfl

theorem hexValue?_of_isDigit (h : c.isDigit = true) : Text.hexValue? c = some (c.toNat - 48) := by
  have hbounds : '0' ≤ c ∧ c ≤ '9' := by
    simp only [Char.isDigit, Bool.and_eq_true, decide_eq_true_eq] at h
    exact h
  rw [Text.hexValue?, if_pos hbounds]
  rfl

theorem valueIn_toDigits (n : Nat) : valueIn 10 (Nat.toDigits 10 n) = n := by
  have hsteps : ∀ digits : List Char, (∀ c ∈ digits, c.isDigit = true) →
      ∀ k, digits.foldl (fun n c => n * 10 + (Text.hexValue? c).getD 0) k =
        Nat.ofDigitChars 10 digits k := by
    intro digits hdigits
    induction digits with
    | nil => exact fun k => rfl
    | cons c digits ih =>
      obtain ⟨hc, hdigits⟩ := List.forall_mem_cons.1 hdigits
      intro k
      rw [List.foldl_cons, ih hdigits, hexValue?_of_isDigit hc, Nat.ofDigitChars_cons, Nat.mul_comm]
      rfl
  rw [valueIn, hsteps _ (fun c hc => Text.isDigit_of_mem_toDigits hc),
    Nat.ofDigitChars_ten_toDigits]

theorem decimal?_toDigits (n : Nat) :
    decimal? (Nat.toDigits 10 n) = some (Nat.toDigits 10 n) := by
  have hall : ∀ c ∈ Nat.toDigits 10 n, c.isDigit = true := fun c hc =>
    Text.isDigit_of_mem_toDigits hc
  rw [decimal?, digits?_of_forall Nat.toDigits_ne_nil hall, Option.bind_eq_bind, Option.bind_some,
    Text.no_needless_zero]
  rfl

/-- No letter stands behind the first digit, so no other base is meant. -/
theorem integer?_of_digits (hall : ∀ c ∈ cs.tail, c.isDigit = true) :
    integer? cs = (decimal? (unsigned cs).2).bind fun ds =>
      bounded? (if (unsigned cs).1 then -(valueIn 10 ds : Int) else valueIn 10 ds) := by
  have hletter (d : Char) (hd : d.isDigit = false) (ds : List Char) : cs ≠ '0' :: d :: ds := by
    rintro rfl
    simp [hall d List.mem_cons_self] at hd
  rw [integer?.eq_4 cs (hletter 'x' rfl) (hletter 'o' rfl) (hletter 'b' rfl)]
  rfl

theorem unsigned_of_digit (h : ∀ c ∈ cs.head?, c.isDigit = true) : unsigned cs = (false, cs) := by
  unfold unsigned
  split
  · exact absurd (h _ rfl) (by decide)
  · exact absurd (h _ rfl) (by decide)
  · rfl

theorem integer?_toString {n : Int} (h : fits64 n = true) :
    integer? (toString n).toList = some n := by
  have hdigits (n : Nat) : ∀ c ∈ Nat.toDigits 10 n, c.isDigit = true := fun c hc =>
    Text.isDigit_of_mem_toDigits hc
  have hbounded : bounded? n = some n := if_pos h
  rw [Text.toList_toString]
  split_ifs with hn
  · rw [integer?_of_digits fun c hc => hdigits _ c (List.mem_of_mem_tail hc),
      unsigned_of_digit fun c hc => hdigits _ c (List.mem_of_mem_head? hc), decimal?_toDigits,
      Option.bind_some, valueIn_toDigits, Int.toNat_of_nonneg hn]
    exact hbounded
  · have hneg : -(((-n).toNat : Nat) : Int) = n := by
      rw [Int.toNat_of_nonneg (by omega), Int.neg_neg]
    have htail : ∀ c ∈ ('-' :: Nat.toDigits 10 (-n).toNat).tail, c.isDigit = true := hdigits _
    rw [integer?_of_digits htail, unsigned, decimal?_toDigits, Option.bind_some,
      valueIn_toDigits, if_pos rfl, hneg]
    exact hbounded

/-! ### Words -/

theorem isWordChar_of_isDigit (h : c.isDigit = true) : isWordChar c = true := by
  simp [isWordChar, Char.isAlphanum, h]

/-- A date has digits in front of a minus sign. -/
theorem date?_of_no_minus (h : '-' ∉ cs) : date? cs = none := by
  have hbehind : behind? '-' (cs.drop 4) = none := by
    cases hcs : cs.drop 4 with
    | nil => rfl
    | cons d ds =>
      have hd : d ∈ cs := List.mem_of_mem_drop (hcs ▸ List.mem_cons_self)
      exact if_neg fun heq : d = '-' => h (heq ▸ hd)
  simp only [date?, fixed?]
  split_ifs <;> simp [hbehind]

theorem date?_of_minus : date? ('-' :: cs) = none := by
  simp [date?, fixed?]

/-- What is written as one word: every value but texts and arrays. -/
inductive Word : Tree → Prop
  | bool (b : Bool) : Word (.bool b)
  | int {n : Int} : fits64 n = true → Word (.int n)

theorem Word.spec {t : Tree} (h : Word t) :
    writeValue t ≠ [] ∧ (∀ c ∈ writeValue t, isWordChar c = true) ∧
      date? (writeValue t) = none := by
  cases h with
  | bool b => cases b <;> exact ⟨by decide, List.all_eq_true.1 rfl, by decide⟩
  | @int n _ =>
    have hdigits (n : Nat) : ∀ c ∈ Nat.toDigits 10 n, c.isDigit = true := fun c hc =>
      Text.isDigit_of_mem_toDigits hc
    rw [writeValue, Text.toList_toString]
    split_ifs
    · refine ⟨Nat.toDigits_ne_nil, fun c hc => isWordChar_of_isDigit (hdigits _ c hc),
        date?_of_no_minus fun hc => ?_⟩
      exact absurd (hdigits _ _ hc) (by decide)
    · refine ⟨List.cons_ne_nil _ _, List.forall_mem_cons.2 ⟨by decide, fun c hc => ?_⟩,
        date?_of_minus⟩
      exact isWordChar_of_isDigit (hdigits _ c hc)

theorem Word.head {t : Tree} (h : Word t) :
    ∃ c cs, writeValue t = c :: cs ∧ isWordChar c = true := by
  obtain ⟨hne, hall, -⟩ := h.spec
  obtain ⟨c, cs, hcs⟩ := List.exists_cons_of_ne_nil hne
  exact ⟨c, cs, hcs, hall c (hcs ▸ List.mem_cons_self)⟩

theorem wordChars_append (hne : cs ≠ []) (hall : ∀ c ∈ cs, isWordChar c = true)
    (hdate : date? cs = none) (hrest : ∀ c ∈ rest.head?, isWordChar c = false) :
    wordChars (cs ++ rest) = some (cs, rest) := by
  unfold wordChars
  rw [Scan.bind_of_some (Scan.takeWhile1_append hne hall hrest), hdate]
  rfl

theorem text_of_ne (hq : c ≠ '"') (ha : c ≠ apostrophe) : text (c :: cs) = none := by
  have hlines : basicLines (c :: cs) = none := multiLine_of_ne hq
  have hbasic : basicText (c :: cs) = none := Scan.bind_of_none (Scan.char_of_ne hq)
  have hliterals : literalLines (c :: cs) = none := multiLine_of_ne ha
  rw [text, Scan.orElse_of_none hlines, Scan.orElse_of_none hbasic, Scan.orElse_of_none hliterals]
  exact Scan.bind_of_none (Scan.char_of_ne ha)

/-! ### Values -/

/-- The values that are written on one line. -/
inductive Inline : Tree → Prop
  | text (s : String) : Inline (.text s)
  | word {t : Tree} : Word t → Inline t
  | empty : Inline (.list [])

/-- What may stand behind a value without changing it. -/
def EndsValue (rest : List Char) : Prop :=
  ∀ c ∈ rest.head?, c ≠ '"' ∧ c ≠ apostrophe ∧ isWordChar c = false

theorem scalar_word {t : Tree} (h : Word t) (hrest : EndsValue rest) :
    scalar (writeValue t ++ rest) = some (t, rest) := by
  obtain ⟨hne, hall, hdate⟩ := h.spec
  have hword := wordChars_append hne hall hdate fun c hc => (hrest c hc).2.2
  obtain ⟨c, cs, hcs, hc⟩ := h.head
  have htext : text (writeValue t ++ rest) = none := by
    rw [hcs]
    refine text_of_ne ?_ ?_ <;> rintro rfl <;> exact absurd hc (by decide)
  rw [scalar, Scan.orElse_of_none (Scan.map_of_none htext), Scan.bind_of_some hword]
  cases h with
  | bool b => cases b <;> rfl
  | @int n hn =>
    have hint : integer? (writeValue (.int n)) = some n := integer?_toString hn
    have htree : wordTree? (writeValue (.int n)) = some (.int n) := by rw [wordTree?, hint]
    have hother {w : List Char} (hw : integer? w = none) : (writeValue (.int n) == w) = false := by
      refine beq_eq_false_iff_ne.2 fun heq => ?_
      rw [heq, hw] at hint
      contradiction
    rw [hother rfl, hother rfl, htree]
    rfl

theorem value_of_ne {depth : Nat} (hb : c ≠ '[') (hr : c ≠ '\x7b') :
    value depth (c :: cs) = scalar (c :: cs) := by
  cases depth with
  | zero => rfl
  | succ depth =>
    have harray : arrayWith (value depth) (c :: cs) = none :=
      Scan.bind_of_none (Scan.char_of_ne hb)
    have htable : tableWith (value depth) (c :: cs) = none :=
      Scan.bind_of_none (Scan.char_of_ne hr)
    rw [value, Scan.orElse_of_none harray, Scan.orElse_of_none htable]

theorem head_writeText (s : String) :
    ∃ c cs, writeText s = c :: cs ∧ c ≠ '[' ∧ c ≠ '\x7b' := by
  rw [writeText]
  cases TextForm.choose s.toList <;> exact ⟨_, _, rfl, by decide, by decide⟩

/-- Between the brackets of an empty array stands no item. -/
theorem arrayWith_empty (depth : Nat) (rest : List Char) :
    arrayWith (value depth) ('[' :: ']' :: rest) = some (.list [], rest) := by
  have hgap : gap (']' :: rest) = some ((), ']' :: rest) := rfl
  have hvalue : value depth (']' :: rest) = none := by
    rw [value_of_ne (by decide) (by decide)]
    rfl
  have hitems : Scan.sepBy1 (do gap; let v ← value depth; gap; return v) (Scan.char ',')
      (']' :: rest) = none := by
    refine Scan.bind_of_none ?_
    rw [Scan.bind_of_some hgap]
    exact Scan.bind_of_none hvalue
  unfold arrayWith
  rw [Scan.bind_of_some (Scan.char_cons _ _), Scan.bind_of_some hgap,
    Scan.bind_of_some (Scan.optional_of_none hitems)]
  rfl

/-- A value that is written on one line is read back. -/
theorem value_writeValue {t : Tree} (h : Inline t) (hrest : EndsValue rest) (depth : Nat) :
    value (depth + 1) (writeValue t ++ rest) = some (t, rest) := by
  cases h with
  | text s =>
    have htext := text_writeText s fun c hc => ⟨(hrest c hc).1, (hrest c hc).2.1⟩
    obtain ⟨c, cs, hcs, hb, hr⟩ := head_writeText s
    rw [writeValue, hcs, List.cons_append, value_of_ne hb hr, ← List.cons_append, ← hcs, scalar]
    exact Scan.orElse_of_some (Scan.map_of_some htext)
  | @word t h =>
    obtain ⟨c, cs, hcs, hc⟩ := h.head
    have hscalar : value (depth + 1) (writeValue t ++ rest) = scalar (writeValue t ++ rest) := by
      rw [hcs]
      refine value_of_ne ?_ ?_ <;> rintro rfl <;> exact absurd hc (by decide)
    rw [hscalar, scalar_word h hrest]
  | empty => exact Scan.orElse_of_some (arrayWith_empty depth rest)

/-! ### Names -/

/-- A name is read back, be it bare or in quotes. -/
theorem name_writeName (s : String) (hrest : ∀ c ∈ rest.head?, isBare c = false) :
    name (writeName s ++ rest) = some (s, rest) := by
  unfold writeName
  split_ifs with h
  · simp only [Bool.and_eq_true, List.all_eq_true] at h
    have hne : s.toList ≠ [] := by simpa using h.1
    have hread : Scan.takeWhile1 isBare (s.toList ++ rest) = some (s.toList, rest) :=
      Scan.takeWhile1_append hne h.2 hrest
    have hname := Scan.map_of_some (g := String.ofList) hread
    rw [String.ofList_toList] at hname
    exact Scan.orElse_of_some hname
  · have hread := basicText_spelled (spelled_escaped false 0 0 s.toList) rest
    rw [String.ofList_toList] at hread
    have hbare : (String.ofList <$> Scan.takeWhile1 isBare)
        ('"' :: (escaped false 0 0 s.toList ++ '"' :: rest)) = none :=
      Scan.map_of_none (Scan.takeWhile1_of_head (by simp; decide))
    simp only [List.append_assoc, List.cons_append, List.nil_append]
    rw [name, Scan.orElse_of_none hbare]
    exact Scan.orElse_of_some hread

end PadRouter.Toml

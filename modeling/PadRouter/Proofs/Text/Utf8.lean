import Mathlib.Tactic.SplitIfs
import PadRouter.Text.Utf8

/-!
# Texts as bytes

* `Utf8.partsFrom_last`, `Utf8.partsFrom_more` — one more byte of a character that has been begun.
* `Utf8.exists_lead` — what the first byte of a longer character says, by the number of bytes.
* `Utf8.partsFrom_encodeChar` — one character comes back from its bytes.
* `Utf8.decode?_encode` — a text comes back from its bytes.
-/

namespace PadRouter.Utf8

/-- The next byte may carry these six bits. -/
def Begun.Admits (p : Begun) (bits : Nat) : Prop :=
  p.low.toNat ≤ bits + 0x80 ∧ bits + 0x80 ≤ p.high.toNat

variable {p : Begun} {b : UInt8} {v bits left : Nat} {rest : List UInt8}

/-! ### The bytes after the first -/

/-- Only the second byte has bounds of its own. -/
theorem admits_later (h : bits < 64) : Begun.Admits { value := v, more := left } bits := by
  simp only [Begun.Admits, UInt8.reduceToNat]
  omega

theorem toNat_later (h : bits < 64) : (UInt8.ofNat (bits + 0x80)).toNat = bits + 0x80 :=
  UInt8.toNat_ofNat_of_lt' (by rw [UInt8.size]; omega)

theorem within_bounds (h : bits < 64) (hadmits : p.Admits bits) :
    p.low ≤ UInt8.ofNat (bits + 0x80) ∧ UInt8.ofNat (bits + 0x80) ≤ p.high := by
  rw [UInt8.le_iff_toNat_le, UInt8.le_iff_toNat_le, toNat_later h]
  exact hadmits

theorem partsFrom_last (h : bits < 64) (hadmits : p.Admits bits) (hmore : p.more = 0) :
    partsFrom (some p) (UInt8.ofNat (bits + 0x80) :: rest) =
      some (Char.ofNat (p.value * 64 + bits)) :: partsFrom none rest := by
  rw [partsFrom, if_pos (within_bounds h hadmits), toNat_later h, Nat.add_sub_cancel, hmore]

theorem partsFrom_more (h : bits < 64) (hadmits : p.Admits bits) (hmore : p.more = left + 1) :
    partsFrom (some p) (UInt8.ofNat (bits + 0x80) :: rest) =
      partsFrom (some { value := p.value * 64 + bits, more := left }) rest := by
  rw [partsFrom, if_pos (within_bounds h hadmits), toNat_later h, Nat.add_sub_cancel, hmore]

/-! ### The first byte -/

theorem partsFrom_lead (h : lead b = .begun p) :
    partsFrom none (b :: rest) = partsFrom (some p) rest := by
  rw [partsFrom, h]

theorem lead_whole (h : v ≤ 0x7F) : lead (UInt8.ofNat v) = .whole (Char.ofNat v) := by
  have hbyte : (UInt8.ofNat v).toNat = v := UInt8.toNat_ofNat_of_lt' (by rw [UInt8.size]; omega)
  simp only [lead, hbyte]
  rw [if_pos (by omega)]

/-- What a byte says that begins a longer character. Four of them leave only a part of the bytes to
come next. -/
theorem exists_lead {n : Nat} (hlow : 0xC2 ≤ n) (hhigh : n ≤ 0xF4) :
    ∃ p, lead (UInt8.ofNat n) = .begun p ∧
      (n < 0xE0 ∧ p.value = n - 0xC0 ∧ p.more = 0 ∨
        0xE0 ≤ n ∧ n < 0xF0 ∧ p.value = n - 0xE0 ∧ p.more = 1 ∨
        0xF0 ≤ n ∧ p.value = n - 0xF0 ∧ p.more = 2) ∧
      ∀ bits < 64, (n = 0xE0 → 32 ≤ bits) → (n = 0xED → bits < 32) → (n = 0xF0 → 16 ≤ bits) →
        (n = 0xF4 → bits < 16) → p.Admits bits := by
  have hbyte : (UInt8.ofNat n).toNat = n := UInt8.toNat_ofNat_of_lt' (by rw [UInt8.size]; omega)
  have hwhole : ¬ n < 0x80 := by omega
  have hbad : ¬ n < 0xC2 := by omega
  have hlead := lead.eq_1 (UInt8.ofNat n)
  simp only [hbyte, if_neg hwhole, if_neg hbad] at hlead
  split_ifs at hlead
  all_goals first
    | omega
    | refine ⟨_, hlead, ?_, fun bits hbits hE0 hED hF0 hF4 => ?_⟩
      · dsimp only
        omega
      · simp only [Begun.Admits, UInt8.reduceToNat]
        omega

/-! ### Characters and texts -/

theorem partsFrom_encodeChar (c : Char) (rest : List UInt8) :
    partsFrom none (String.utf8EncodeChar c ++ rest) = some c :: partsFrom none rest := by
  obtain ⟨v, hv⟩ : ∃ v, c.val.toNat = v := ⟨_, rfl⟩
  have hvalid : v < 0xD800 ∨ 0xDFFF < v ∧ v < 0x110000 := hv ▸ c.valid
  have hchar : Char.ofNat v = c := hv ▸ Char.ofNat_toNat c
  simp only [String.utf8EncodeChar, hv]
  -- The cases are the numbers of bytes. The first one is known by its range, and the sum of all
  -- bits, six for each later byte, is the number of the character.
  split_ifs with hone htwo hthree
  · rw [List.cons_append, List.nil_append, partsFrom, lead_whole hone, hchar]
  · obtain ⟨p, hlead, hkind, hadmits⟩ := exists_lead (n := v / 64 % 32 + 0xC0) (by omega) (by omega)
    have hmore : p.more = 0 := by omega
    have hsum : p.value * 64 + v % 64 = v := by omega
    have hbits : p.Admits (v % 64) :=
      hadmits _ (by omega) (by omega) (by omega) (by omega) (by omega)
    simp only [List.cons_append, List.nil_append]
    rw [partsFrom_lead hlead, partsFrom_last (by omega) hbits hmore, hsum, hchar]
  · obtain ⟨p, hlead, hkind, hadmits⟩ :=
      exists_lead (n := v / 4096 % 16 + 0xE0) (by omega) (by omega)
    have hmore : p.more = 1 := by omega
    have hsum : (p.value * 64 + v / 64 % 64) * 64 + v % 64 = v := by omega
    have hbits : p.Admits (v / 64 % 64) :=
      hadmits _ (by omega) (by omega) (by omega) (by omega) (by omega)
    simp only [List.cons_append, List.nil_append]
    rw [partsFrom_lead hlead, partsFrom_more (by omega) hbits hmore,
      partsFrom_last (by omega) (admits_later (by omega)) rfl, hsum, hchar]
  · obtain ⟨p, hlead, hkind, hadmits⟩ :=
      exists_lead (n := v / 262144 % 8 + 0xF0) (by omega) (by omega)
    have hmore : p.more = 2 := by omega
    have hsum : ((p.value * 64 + v / 4096 % 64) * 64 + v / 64 % 64) * 64 + v % 64 = v := by omega
    have hbits : p.Admits (v / 4096 % 64) :=
      hadmits _ (by omega) (by omega) (by omega) (by omega) (by omega)
    simp only [List.cons_append, List.nil_append]
    rw [partsFrom_lead hlead, partsFrom_more (by omega) hbits hmore,
      partsFrom_more (by omega) (admits_later (by omega)) rfl,
      partsFrom_last (by omega) (admits_later (by omega)) rfl, hsum, hchar]

theorem parts_flatMap (cs : List Char) :
    parts (cs.flatMap String.utf8EncodeChar) = cs.map some := by
  induction cs with
  | nil => rfl
  | cons c cs ih =>
    rw [parts, List.flatMap_cons, partsFrom_encodeChar, List.map_cons, ← ih]
    rfl

theorem toList_loop (bytes : ByteArray) (i : Nat) (front : List UInt8) :
    ByteArray.toList.loop bytes i front = front.reverse ++ bytes.data.toList.drop i := by
  fun_induction ByteArray.toList.loop bytes i front with
  | case1 i front hi ih =>
    have hlength : i < bytes.data.toList.length := hi
    have hget : bytes.get! i = bytes.data.toList[i] := by
      have : bytes.get! i = bytes.data[i]! := by cases bytes; rfl
      rw [this, getElem!_pos bytes.data i hi, Array.getElem_toList]
    rw [ih, List.drop_eq_getElem_cons hlength, hget]
    simp
  | case2 i front hi =>
    rw [List.drop_eq_nil_of_le (Nat.le_of_not_lt hi), List.append_nil]

theorem encode_eq_flatMap (s : String) : encode s = s.toList.flatMap String.utf8EncodeChar := by
  have hbytes : s.toUTF8 = s.toList.utf8Encode := by
    rw [String.toUTF8_eq_toByteArray, ← String.toByteArray_ofList, String.ofList_toList]
  rw [encode, hbytes, ByteArray.toList, toList_loop, List.utf8Encode, List.toList_data_toByteArray]
  rfl

/-- A text comes back from its bytes. -/
theorem decode?_encode (s : String) : decode? (encode s) = some s := by
  have hall : (s.toList.map some).mapM id = some s.toList := by
    have hpure : s.toList.mapM (m := Option) (fun c => pure (id c)) = pure (s.toList.map id) :=
      List.mapM_pure
    simpa [List.mapM_map] using hpure
  rw [decode?, encode_eq_flatMap, parts_flatMap, hall, Option.map_some, String.ofList_toList]

end PadRouter.Utf8

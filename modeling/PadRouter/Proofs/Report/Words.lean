import Mathlib.Data.Int.ModEq
import PadRouter.Proofs.Report.Changes
import PadRouter.Proofs.Report.DegreeHats

/-!
# Signs and words

An answer of the host is 32 bits, some of which may be a number with a sign. This number is the only
one of its length that the bits can mean. All numbers of a reading have 33 bits with a sign at the
most, and so nothing that is computed with them leaves a word of 64 bits.

* `Signed` — the numbers of some bits with a sign; a sum, a difference or a shift takes more bits.
* `signExtend_eq_iff`, `signExtend_emod` — the number that the bits of an answer mean, and the bits
  that mean a number.
* `word?` — a number, if a word holds it.
* `Axis.normalizeInWords?`, `Hat.actionsInWords?`, `degreesToPositionInWords?` — what is computed
  with the numbers of a reading, with every sum and difference checked.
* `Keeps.signed_of_mem_readings` — the numbers of all readings of a run.
* `readings_stay_in_words` — no check fails for any of them.
-/

namespace PadRouter

/-- A number of some bits, one of which is for the sign. -/
def Signed (bits : Nat) (n : Int) : Prop := -2 ^ (bits - 1) ≤ n ∧ n < 2 ^ (bits - 1)

instance (bits : Nat) (n : Int) : Decidable (Signed bits n) :=
  inferInstanceAs (Decidable (_ ∧ _))

variable {bits more : Nat} {m n raw lo hi : Int} {hat : Hat} {r : Reading} {f : ValueField}

/-! ### Numbers with a sign -/

theorem signed_succ : Signed (bits + 1) n ↔ -2 ^ bits ≤ n ∧ n < 2 ^ bits := Iff.rfl

theorem signed_natCast {n : Nat} (h : n < 2 ^ bits) : Signed (bits + 1) n := by
  have hcast : (n : Int) < 2 ^ bits := by exact_mod_cast h
  rw [signed_succ]
  omega

namespace Signed

theorem mono (h : Signed bits n) (hle : bits ≤ more) : Signed more n := by
  have hpow : (2 : Int) ^ (bits - 1) ≤ 2 ^ (more - 1) :=
    pow_le_pow_right₀ (by decide) (by omega)
  unfold Signed at *
  omega

/-- A sum takes one bit more. -/
theorem add (hm : Signed (bits + 1) m) (hn : Signed (bits + 1) n) :
    Signed (bits + 2) (m + n) := by
  have hpow : (2 : Int) ^ (bits + 1) = 2 * 2 ^ bits := pow_succ' 2 bits
  rw [signed_succ] at *
  omega

/-- A difference takes one bit more. -/
theorem sub (hm : Signed (bits + 1) m) (hn : Signed (bits + 1) n) :
    Signed (bits + 2) (m - n) := by
  have hpow : (2 : Int) ^ (bits + 1) = 2 * 2 ^ bits := pow_succ' 2 bits
  rw [signed_succ] at *
  omega

/-- A shift takes one bit more for each place. -/
theorem mul_two_pow (h : Signed (bits + 1) n) (shift : Nat) :
    Signed (bits + shift + 1) (n * 2 ^ shift) := by
  have hpos : (0 : Int) < 2 ^ shift := by positivity
  rw [signed_succ, pow_add, ← neg_mul]
  exact ⟨mul_le_mul_of_nonneg_right h.1 hpos.le, mul_lt_mul_of_pos_right h.2 hpos⟩

end Signed

/-! ### Balanced remainders -/

/-- The balanced remainder is the only number of so many bits with a sign in its class. -/
theorem bmod_eq_iff_signed :
    m.bmod (2 ^ (bits + 1)) = n ↔ Signed (bits + 1) n ∧ n ≡ m [ZMOD 2 ^ (bits + 1)] := by
  have hpow : (2 : Int) ^ (bits + 1) = 2 * 2 ^ bits := pow_succ' 2 bits
  have hlow : -((2 ^ (bits + 1) : Nat) / 2 : Int) = -2 ^ bits := by
    push_cast
    omega
  have hhigh : ((2 ^ (bits + 1) : Nat) + 1 : Int) / 2 = 2 ^ bits := by
    push_cast
    omega
  rw [Int.bmod_eq_iff (by positivity), hlow, hhigh, signed_succ, and_assoc, Int.modEq_comm,
    Int.modEq_iff_dvd, Nat.cast_pow]
  rfl

theorem bmod_mul_two_pow (m : Int) (bits shift : Nat) :
    (m * 2 ^ shift).bmod (2 ^ (bits + shift + 1)) = m.bmod (2 ^ (bits + 1)) * 2 ^ shift := by
  obtain ⟨hsigned, hmod⟩ := bmod_eq_iff_signed.mp (rfl : m.bmod (2 ^ (bits + 1)) = _)
  have hpow : (2 : Int) ^ (bits + shift + 1) = 2 ^ (bits + 1) * 2 ^ shift := by ring
  -- the shifted remainder has the length and the class that only one number has
  refine bmod_eq_iff_signed.mpr ⟨hsigned.mul_two_pow shift, ?_⟩
  rw [hpow]
  exact hmod.mul_right'

/-! ### Sign extension -/

/-- How many bits of an answer count: at least one, and no more than an answer has. -/
def countedBits (bits : UInt16) : Nat := max 1 (min bits.toNat 32)

theorem exists_countedBits (bits : UInt16) : ∃ rest ≤ 31, countedBits bits = rest + 1 := by
  refine ⟨countedBits bits - 1, ?_, ?_⟩
  all_goals
    unfold countedBits
    omega

section SignExtension

variable {raw : UInt32} {bits : UInt16}

/-- To move bits to the top of a word and back is to take the balanced remainder. -/
theorem signExtend_eq_bmod (raw : UInt32) (bits : UInt16) :
    signExtend raw bits = (raw.toNat : Int).bmod (2 ^ countedBits bits) := by
  obtain ⟨rest, hrest, hcounted⟩ := exists_countedBits bits
  have hraw : (BitVec.ofNat 64 raw.toNat).toNat = raw.toNat := by
    have hlt := raw.toNat_lt
    rw [BitVec.toNat_ofNat]
    omega
  let shift := 64 - countedBits bits
  -- the counted bits and the places of the shift fill the word
  have hword : 64 = rest + shift + 1 := by omega
  have hpos : (2 : Int) ^ shift ≠ 0 := by positivity
  calc signExtend raw bits
      = ((BitVec.ofNat 64 raw.toNat <<< shift).sshiftRight shift).toInt := rfl
    _ = (raw.toNat * 2 ^ shift : Int).bmod (2 ^ (rest + shift + 1)) / 2 ^ shift := by
        rw [BitVec.toInt_sshiftRight, BitVec.toInt_shiftLeft, Int.shiftRight_eq_div_pow, hraw,
          Nat.shiftLeft_eq, ← hword]
        push_cast
        rfl
    _ = (raw.toNat : Int).bmod (2 ^ (rest + 1)) := by
        rw [bmod_mul_two_pow, Int.mul_ediv_cancel _ hpos]
    _ = (raw.toNat : Int).bmod (2 ^ countedBits bits) := by rw [hcounted]

theorem signExtend_eq_iff :
    signExtend raw bits = n ↔
      Signed (countedBits bits) n ∧ n ≡ raw.toNat [ZMOD 2 ^ countedBits bits] := by
  obtain ⟨rest, -, hcounted⟩ := exists_countedBits bits
  rw [signExtend_eq_bmod, hcounted, bmod_eq_iff_signed]

theorem signed_signExtend (raw : UInt32) (bits : UInt16) :
    Signed (countedBits bits) (signExtend raw bits) :=
  (signExtend_eq_iff.mp rfl).1

/-- The low bits of a number mean this number. -/
theorem signExtend_emod (h : Signed (countedBits bits) n) :
    signExtend (UInt32.ofNat (n % 2 ^ countedBits bits).toNat) bits = n := by
  obtain ⟨rest, hrest, hcounted⟩ := exists_countedBits bits
  have hpow : (2 : Int) ^ countedBits bits ≤ 2 ^ 32 := pow_le_pow_right₀ (by decide) (by omega)
  have hnonneg : 0 ≤ n % 2 ^ countedBits bits := Int.emod_nonneg n (by positivity)
  have hlt : n % 2 ^ countedBits bits < 2 ^ countedBits bits :=
    Int.emod_lt_of_pos n (by positivity)
  have hsize : (n % 2 ^ countedBits bits).toNat < UInt32.size := by
    rw [UInt32.size]
    omega
  rw [signExtend_eq_iff, UInt32.toNat_ofNat_of_lt' hsize, Int.toNat_of_nonneg hnonneg]
  exact ⟨h, (Int.mod_modEq n _).symm⟩

end SignExtension

/-! ### Words -/

/-- A number, if a word of 64 bits with a sign holds it. -/
def word? (n : Int) : Option Int := if Signed 64 n then some n else none

theorem word?_of_signed (h : Signed bits n) (hle : bits ≤ 64) : word? n = some n :=
  if_pos (h.mono hle)

/-- A reading scaled to `[-1, 1]`, where the differences have to be words. -/
def Axis.normalizeInWords? (raw min max : Int) : Option Float :=
  if max = min then some 0
  else do
    let distance ← word? (raw - min)
    let span ← word? (max - min)
    some (Float.ofInt distance / Float.ofInt span * 2 - 1)

/-- The actions of a hat switch position, which has to be a word also where it counts from 0. -/
def Hat.actionsInWords? (hat : Hat) (raw : Int) : Option (List Action) :=
  (word? (raw - if hat = .h0h7 then 0 else 1)).map Hat.h0h7.actions

/-- The position of a hat switch that reports an angle, where the sum and the differences have to be
words. -/
def degreesToPositionInWords? (raw lo hi : Int) : Option Int :=
  if raw < lo ∨ hi < raw then some centredPosition
  else do
    let width ← word? (hi - lo)
    let span ← word? (width + 1)
    let distance ← word? (raw - lo)
    let angle : Rat := (distance : Rat) * 360 / (span : Rat)
    some (((angle + 45 / 2) / 45).floor % 8)

/-- The reading that a field's bits stand for, found in words. -/
def ValueField.readingInWords? (f : ValueField) (raw : UInt32) : Option Reading :=
  if f.isDegreeHat then
    (degreesToPositionInWords? (f.number raw) f.min f.max).map fun position =>
      ⟨f.element, position, 0, 7⟩
  else some ⟨f.element, f.number raw, f.min, f.max⟩

theorem Hat.actionsInWords?_eq (hat : Hat) (h : Signed 33 raw) :
    hat.actionsInWords? raw = some (hat.actions raw) := by
  have hfirst : Signed 33 (if hat = .h0h7 then 0 else 1) := by
    split
    · decide
    · decide
  rw [Hat.actionsInWords?, word?_of_signed (h.sub hfirst) (by decide), Option.map_some]
  by_cases hzero : hat = .h0h7
  · rw [if_pos hzero, sub_zero, hzero]
  · rw [if_neg hzero, actions_of_ne hzero]

/-- A position may be below the least one that there is; then a word need not hold it any more. -/
example : Hat.h1h8.actionsInWords? (-2 ^ 63) = none := by decide

theorem degreesToPositionInWords?_eq (hraw : Signed 33 raw) (hlo : Signed 33 lo)
    (hhi : Signed 33 hi) :
    degreesToPositionInWords? raw lo hi = some (degreesToPosition raw lo hi) := by
  have hwidth : Signed 34 (hi - lo) := hhi.sub hlo
  have hspan : Signed 35 (hi - lo + 1) := hwidth.add (by decide)
  have hdistance : Signed 34 (raw - lo) := hraw.sub hlo
  unfold degreesToPositionInWords? degreesToPosition
  split
  · rfl
  · rw [word?_of_signed hwidth (by decide), Option.bind_eq_bind, Option.bind_some,
      word?_of_signed hspan (by decide), word?_of_signed hdistance (by decide)]
    rfl

/-! ### The numbers of a reading -/

/-- The value of a reading and the bounds of its range. -/
def Reading.numbers (r : Reading) : List Int := [r.value, r.min, r.max]

theorem Reading.normalizeInWords?_eq (h : ∀ n ∈ r.numbers, Signed 33 n) :
    Axis.normalizeInWords? r.value r.min r.max = some (Axis.normalize r.value r.min r.max) := by
  simp only [Reading.numbers, List.forall_mem_cons] at h
  obtain ⟨hvalue, hmin, hmax, -⟩ := h
  unfold Axis.normalizeInWords? Axis.normalize
  split
  · rfl
  · rw [word?_of_signed (hvalue.sub hmin) (by decide), word?_of_signed (hmax.sub hmin) (by decide)]
    rfl

/-- Without a sign an answer takes a 33rd bit. -/
theorem ValueField.signed_number (f : ValueField) (raw : UInt32) : Signed 33 (f.number raw) := by
  unfold ValueField.number
  split
  · obtain ⟨rest, hrest, hcounted⟩ := exists_countedBits f.bits
    exact (signed_signExtend raw f.bits).mono (by omega)
  · exact signed_natCast raw.toNat_lt

theorem ValueField.readingInWords?_eq (hmin : Signed 32 f.min) (hmax : Signed 32 f.max)
    (raw : UInt32) : f.readingInWords? raw = some (f.reading raw) := by
  unfold ValueField.readingInWords? ValueField.reading
  split
  · rw [degreesToPositionInWords?_eq (f.signed_number raw) (hmin.mono (by decide))
      (hmax.mono (by decide)), Option.map_some]
  · rfl

theorem ValueField.signed_value (f : ValueField) (raw : UInt32) :
    Signed 33 (f.reading raw).value := by
  cases hdegree : f.isDegreeHat with
  | false =>
    rw [value_of_positionHat hdegree]
    exact f.signed_number raw
  | true =>
    rw [value_of_degreeHat hdegree, signed_succ]
    by_cases hin : f.min ≤ f.number raw ∧ f.number raw ≤ f.max
    · obtain ⟨hlow, hhigh⟩ := position_bounds hin
      omega
    · rw [position_of_outside hin]
      decide

theorem ValueField.signed_reading (hmin : Signed 32 f.min) (hmax : Signed 32 f.max)
    (raw : UInt32) : ∀ n ∈ (f.reading raw).numbers, Signed 33 n := by
  have hbounds : Signed 33 (f.reading raw).min ∧ Signed 33 (f.reading raw).max := by
    unfold ValueField.reading
    split
    · exact ⟨(by decide : Signed 33 0), (by decide : Signed 33 7)⟩
    · exact ⟨hmin.mono (by decide), hmax.mono (by decide)⟩
  simp only [Reading.numbers, List.forall_mem_cons]
  exact ⟨f.signed_value raw, hbounds.1, hbounds.2, by simp⟩

/-! ### Runs -/

section Runs

open ReportDecoder

variable {map : FieldMap} {d : ReportDecoder} {before : List AnsweredReport} {x : AnsweredReport}

/-- What is told of a field is a reading of this field. -/
theorem FieldMap.exists_bits_of_mem_news (h : r ∈ map.news f before x) :
    ∃ raw, r = f.reading raw := by
  have hanswers : r ∈ map.answers f (before ++ [x]) := by
    rw [answers_concat]
    exact List.mem_append_right _ (List.mem_of_mem_filter h)
  exact exists_bits_of_mem_answers hanswers

/-- A press or a release has a one, if it is a press, and the range from 0 to 1. -/
theorem signed_of_mem_edges {s t : Table Element Unit} (h : r ∈ edges s t) :
    ∀ n ∈ r.numbers, Signed 33 n := by
  rcases List.mem_append.mp h with h | h
  all_goals
    obtain ⟨e, -, rfl⟩ := List.mem_map.mp h
    simp only [Reading.numbers]
    decide

theorem Keeps.signed_of_mem_readings (hkeeps : Keeps map before d)
    (hranges : ∀ f ∈ map.values, Signed 32 f.min ∧ Signed 32 f.max)
    (h : r ∈ (d.receive x).readings) : ∀ n ∈ r.numbers, Signed 33 n := by
  rw [(hkeeps.receive x).2, List.mem_append] at h
  rcases h with hedge | hvalue
  · exact signed_of_mem_edges hedge
  · obtain ⟨f, hf, hnews⟩ := List.mem_flatMap.mp hvalue
    obtain ⟨raw, rfl⟩ := FieldMap.exists_bits_of_mem_news hnews
    exact ValueField.signed_reading (hranges f hf).1 (hranges f hf).2 raw

/-- Wherever a field is asked for, it keeps its range. -/
theorem Keeps.ranges (hkeeps : Keeps map before d)
    (hranges : ∀ f ∈ map.values, Signed 32 f.min ∧ Signed 32 f.max) :
    ∀ v ∈ d.values, Signed 32 v.field.min ∧ Signed 32 v.field.max := by
  intro v hv
  rw [hkeeps.values] at hv
  obtain ⟨f, hf, rfl⟩ := List.mem_map.mp hv
  exact hranges f hf

/-- **Signs and words.** Of the bits of an answer as many count as the field has, but at least one
and at most 32. The number that they mean is the only one of so many bits with a sign that is
congruent to the answer; so each such number is had back from its low bits.

Take any field map whose ranges have bounds of 32 bits with a sign, any reports, and whatever the
host answers about them. Then all numbers of the readings that are told have 33 bits with a sign at
the most, and no sum or difference that is computed leaves a word of 64 bits: neither where the bits
of a field become a reading, an angle included, nor where a reading that was told is scaled as an
axis, or taken as the position of a hat switch under any encoding. In words all of these give what
they give in integers. -/
theorem readings_stay_in_words :
    (∀ (raw : UInt32) (bits : UInt16) (n : Int),
      signExtend raw bits = n ↔
        Signed (countedBits bits) n ∧ n ≡ raw.toNat [ZMOD 2 ^ countedBits bits]) ∧
    (∀ (bits : UInt16) (n : Int), Signed (countedBits bits) n →
      signExtend (UInt32.ofNat (n % 2 ^ countedBits bits).toNat) bits = n) ∧
    ∀ (map : FieldMap) (queries : ReportQueries),
      (∀ f ∈ map.values, Signed 32 f.min ∧ Signed 32 f.max) →
      ∀ (xs : List AnsweredReport) (x : AnsweredReport),
      let d := (new map queries).afterAll xs
      (∀ v ∈ d.values, ∀ raw, v.field.readingInWords? raw = some (v.field.reading raw)) ∧
      ∀ r ∈ (d.receive x).readings,
        (∀ n ∈ r.numbers, Signed 33 n) ∧
        Axis.normalizeInWords? r.value r.min r.max = some (Axis.normalize r.value r.min r.max) ∧
        ∀ hat : Hat, hat.actionsInWords? r.value = some (hat.actions r.value) := by
  refine ⟨fun raw bits n => signExtend_eq_iff, fun bits n => signExtend_emod, ?_⟩
  intro map queries hranges xs x d
  have hkeeps : Keeps map xs d := keeps_afterAll map queries xs
  constructor
  · intro v hv raw
    obtain ⟨hmin, hmax⟩ := hkeeps.ranges hranges v hv
    exact ValueField.readingInWords?_eq hmin hmax raw
  · intro r hr
    have hnumbers := hkeeps.signed_of_mem_readings hranges hr
    have hvalue : Signed 33 r.value := hnumbers r.value (by simp [Reading.numbers])
    refine ⟨hnumbers, Reading.normalizeInWords?_eq hnumbers, fun hat => ?_⟩
    exact hat.actionsInWords?_eq hvalue

end Runs

/-! ### The widest stick -/

/-- A stick with the widest range across and, along, a range that is upside down: its upper bound
was meant to have no sign. -/
def Layout.widestStick : Layout where
  reportLength := 9
  values := [
    ⟨⟨0, Page.desktop, 0, Usage.x, Usage.x, -2 ^ 31, 2 ^ 31 - 1, 32⟩, 0, 0⟩,
    ⟨⟨0, Page.desktop, 0, Usage.y, Usage.y, 0, -1, 32⟩, 0, 32⟩]

/-- The fields of this stick. -/
def FieldMap.widestStick : FieldMap where
  reportLength := 9
  buttons := []
  values := [
    ⟨0, Page.desktop, Usage.x, 0, -2 ^ 31, 2 ^ 31 - 1, 32⟩,
    ⟨0, Page.desktop, Usage.y, 0, 0, -1, 32⟩]
  unnumbered := true

/-- This stick reports the least number of 32 bits with a sign and the greatest one without. Both
are scaled as axes without an overflow. -/
theorem widest_stick_is_scaled :
    Layout.widestStick.capabilities.bind FieldMap.ofCapabilities? = some FieldMap.widestStick ∧
    (∀ f ∈ FieldMap.widestStick.values, Signed 32 f.min ∧ Signed 32 f.max) ∧
    (let queries := Layout.widestStick.file.queries
    let x : AnsweredReport := ⟨(0, [0, 0, 0, 0x80, 0xff, 0xff, 0xff, 0xff]), queries⟩
    let o := (ReportDecoder.new FieldMap.widestStick queries).receive x
    o.readings = [⟨⟨Page.desktop, Usage.x⟩, -2 ^ 31, -2 ^ 31, 2 ^ 31 - 1⟩,
        ⟨⟨Page.desktop, Usage.y⟩, 2 ^ 32 - 1, 0, -1⟩] ∧
      ∀ r ∈ o.readings,
        Axis.normalizeInWords? r.value r.min r.max =
          some (Axis.normalize r.value r.min r.max)) := by
  have hranges : ∀ f ∈ FieldMap.widestStick.values, Signed 32 f.min ∧ Signed 32 f.max := by decide
  refine ⟨by decide, hranges, by decide +kernel, fun r hr => ?_⟩
  obtain ⟨-, htold⟩ := readings_stay_in_words.2.2 _ Layout.widestStick.file.queries hranges []
    ⟨(0, [0, 0, 0, 0x80, 0xff, 0xff, 0xff, 0xff]), Layout.widestStick.file.queries⟩
  exact (htold r hr).2.1

end PadRouter

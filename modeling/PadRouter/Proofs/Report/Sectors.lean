import PadRouter.Proofs.Report.DegreeHats

/-!
# Sectors in whole numbers

The position of a hat switch that reports an angle is a rounded quotient. It can be had from whole
numbers alone: no fraction of a degree is ever lost or gained.

* `sector` — the quotient, rounded, before whole turns are taken off.
* `sector_eq_round`, `sector_bounds` — it is the angle in eighths of a turn, from 0 to 8.
* `position_eq_sector` — the position is the sector, and sector 8 is sector 0 again.
* `sector_add_eighth` — an eighth of the range further is the next sector.
* `position_is_sector` — the position of every number in every range.
-/

namespace PadRouter

/-- The eighth of a turn that is nearest to a distance from the beginning of a range, where `span`
numbers go once round. -/
def sector (distance span : Int) : Int := (16 * distance + span) / (2 * span)

variable {lo hi raw distance span : Int}

/-! ### Sectors -/

theorem sector_eq_round (h : 0 < span) :
    sector distance span = round ((distance : Rat) * 360 / (span : Rat) / 45) := by
  have hspan : (span : Rat) ≠ 0 := by exact_mod_cast h.ne'
  obtain ⟨turn, hturn⟩ : ∃ turn : Nat, 2 * span = turn := ⟨(2 * span).toNat, by omega⟩
  have hquotient : (distance : Rat) * 360 / (span : Rat) / 45 + 1 / 2 =
      ((16 * distance + span : Int) : Rat) / ((2 * span : Int) : Rat) := by
    push_cast
    field_simp
    ring
  rw [round_eq, hquotient, hturn, Int.cast_natCast, Rat.floor_intCast_div_natCast, sector, hturn]

theorem sector_bounds (h₀ : 0 ≤ distance) (h : distance < span) :
    0 ≤ sector distance span ∧ sector distance span ≤ 8 := by
  have hspan : 0 < 2 * span := by omega
  constructor
  · exact Int.ediv_nonneg (by omega) (by omega)
  · apply Int.le_of_lt_add_one
    apply Int.ediv_lt_of_lt_mul hspan
    omega

/-- The last half sector belongs to the next turn. -/
theorem sector_of_last_half (h : distance < span) (hlast : 15 * span ≤ 16 * distance) :
    sector distance span = 8 := by
  have hspan : 0 < 2 * span := by omega
  apply le_antisymm
  · exact (sector_bounds (by omega) h).2
  · apply Int.le_ediv_of_mul_le hspan
    omega

theorem sector_add_eighth (h : 0 < span) (heighth : 8 ∣ span) :
    sector (distance + span / 8) span = sector distance span + 1 := by
  obtain ⟨eighth, rfl⟩ := heighth
  have hdistance : 16 * (distance + 8 * eighth / 8) + 8 * eighth =
      16 * distance + 8 * eighth + 1 * (2 * (8 * eighth)) := by omega
  have hspan : 2 * (8 * eighth) ≠ 0 := by omega
  rw [sector, hdistance, Int.add_mul_ediv_right _ _ hspan, sector]

/-! ### Positions -/

/-- The position is the sector, and sector 8 is sector 0 again. -/
theorem position_eq_sector (h : lo ≤ raw) (h' : raw ≤ hi) :
    degreesToPosition raw lo hi = sector (raw - lo) (hi - lo + 1) % 8 := by
  let f : ValueField := { ValueField.compass with min := lo, max := hi }
  have hround : degreesToPosition raw lo hi = round (f.angle raw / 45) % 8 :=
    position_eq_round (f := f) ⟨h, h'⟩
  rw [hround, sector_eq_round (by omega)]
  rfl

theorem position_eq_eight_iff : degreesToPosition raw lo hi = 8 ↔ raw < lo ∨ hi < raw := by
  constructor
  · intro heq
    by_contra hin
    rw [position_eq_sector (by omega) (by omega)] at heq
    omega
  · intro hout
    rw [degreesToPosition, if_pos hout]
    rfl

/-- **Positions are sectors.** Take any range, empty ones included, and any number. Outside the range
the position is 8, and only there. Inside, it is the eighth of a turn that is nearest to the angle of
the number, which a single division of whole numbers gives; what is nearer to a full turn than to
seven eighths is position 0. Where the range has a multiple of 8 numbers, to go on by an eighth of it
is to go on by one position, and from 7 to 0. -/
theorem position_is_sector (lo hi raw : Int) :
    let span := hi - lo + 1
    let position := degreesToPosition raw lo hi
    (position = 8 ↔ raw < lo ∨ hi < raw) ∧
    (lo ≤ raw → raw ≤ hi →
      position = (16 * (raw - lo) + span) / (2 * span) % 8 ∧
      IsNearest (((raw - lo : Int) : Rat) * 360 / (span : Rat)) position ∧
      (15 * span ≤ 16 * (raw - lo) → position = 0)) ∧
    (0 ≤ position ∧ position ≤ 8) ∧
    (8 ∣ span → lo ≤ raw → raw + span / 8 ≤ hi →
      degreesToPosition (raw + span / 8) lo hi = (position + 1) % 8) := by
  intro span position
  have hspan : span = hi - lo + 1 := rfl
  have hposition (h : lo ≤ raw) (h' : raw ≤ hi) : position = sector (raw - lo) span % 8 :=
    position_eq_sector h h'
  refine ⟨position_eq_eight_iff, fun h h' => ⟨hposition h h', ?_, fun hlast => ?_⟩, ?_, ?_⟩
  · rw [hposition h h', sector_eq_round (by omega)]
    exact isNearest_round _
  · rw [hposition h h', sector_of_last_half (by omega) hlast]
    rfl
  · by_cases hin : lo ≤ raw ∧ raw ≤ hi
    · have heq := hposition hin.1 hin.2
      omega
    · have heq : position = 8 := position_eq_eight_iff.mpr (by omega)
      omega
  · intro heighth h hnext
    have hstep : 0 ≤ span / 8 := Int.ediv_nonneg (by omega) (by omega)
    have hfurther : raw + span / 8 - lo = raw - lo + span / 8 := by omega
    rw [position_eq_sector (by omega) hnext, hfurther, sector_add_eighth (by omega) heighth,
      hposition h (by omega)]
    omega

end PadRouter

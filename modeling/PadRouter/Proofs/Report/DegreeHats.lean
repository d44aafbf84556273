import Mathlib.Algebra.Order.Round
import Mathlib.Data.Rat.Floor
import Mathlib.Tactic.IntervalCases
import Mathlib.Tactic.Linarith
import Mathlib.Tactic.Ring
import PadRouter.Element.Role
import PadRouter.Proofs.Report.Buttons

/-!
# Hat switches that report an angle

An angle becomes a position that counts from 0, and 8 is the centre. A scheme whose hat switch
counts from 1 takes one off every position, also off these.

* `ValueField.angle`, `IsNearest` — the angle of a number, and the direction that is nearest to it.
* `Sector.along`, `Sector.across` — what a direction pulls on each axis of the stick.
* `Hat.FollowsAngles` — the stick is pulled towards the angle, and let go where there is none.
* `isNearest_position` — the position of an angle is its nearest direction.
* `degree_hats_follow_iff` — only where positions count from 0 the stick follows the angle; in the
  other encodings it is one direction behind, and at rest it is pulled up and to the left.
-/

namespace PadRouter

/-- The angle in degrees of a number: the values of the field go once round, from up clockwise. -/
def ValueField.angle (f : ValueField) (n : Int) : Rat :=
  ((n - f.min : Int) : Rat) * 360 / ((f.max - f.min + 1 : Int) : Rat)

/-- Of the directions that are multiples of 45 degrees none is nearer to an angle than direction
`k`; whole turns do not count. -/
def IsNearest (angle : Rat) (k : Int) : Prop :=
  ∃ turns : Int, ∀ j : Int, |angle - 45 * (k + 8 * turns : Int)| ≤ |angle - 45 * j|

namespace Sector

/-- What direction `k` pulls on the vertical axis. -/
def along (k : Int) : Action :=
  if k ∈ [7, 0, 1] then .pullUp else if k ∈ [3, 4, 5] then .pullDown else .releaseY

/-- What direction `k` pulls on the horizontal axis. -/
def across (k : Int) : Action :=
  if k ∈ [1, 2, 3] then .pullRight else if k ∈ [5, 6, 7] then .pullLeft else .releaseX

end Sector

/-- Under an encoding the stick is pulled towards the angle that a hat switch reports, and let go if
it reports none. -/
def Hat.FollowsAngles (hat : Hat) : Prop :=
  ∀ (f : ValueField) (raw : UInt32), f.isDegreeHat = true → f.min ≤ f.max →
    -2 ^ 31 ≤ f.min → f.max < 2 ^ 31 →
    (f.min ≤ f.number raw ∧ f.number raw ≤ f.max →
      ∃ k, 0 ≤ k ∧ k < 8 ∧ IsNearest (f.angle (f.number raw)) k ∧
        (hat.actions (f.reading raw).value).Perm [Sector.along k, Sector.across k]) ∧
    (¬ (f.min ≤ f.number raw ∧ f.number raw ≤ f.max) →
      hat.actions (f.reading raw).value = [.releaseXY])

variable {f : ValueField} {raw : UInt32} {n k : Int} {hat : Hat}

/-! ### Positions -/

theorem isNearest_round (angle : Rat) : IsNearest angle (round (angle / 45) % 8) := by
  refine ⟨round (angle / 45) / 8, fun j => ?_⟩
  have hsum : round (angle / 45) % 8 + 8 * (round (angle / 45) / 8) = round (angle / 45) :=
    Int.emod_add_mul_ediv _ 8
  have hscale : ∀ m : Int, |angle - 45 * (m : Rat)| = 45 * |angle / 45 - (m : Rat)| := by
    intro m
    have hfactor : angle - 45 * (m : Rat) = 45 * (angle / 45 - (m : Rat)) := by ring
    rw [hfactor, abs_mul, abs_of_pos (by norm_num)]
  rw [hsum, hscale, hscale]
  exact mul_le_mul_of_nonneg_left (round_le (angle / 45) j) (by norm_num)

/-- The position of an angle is the direction that is nearest to it. -/
theorem position_eq_round (h : f.min ≤ n ∧ n ≤ f.max) :
    degreesToPosition n f.min f.max = round (f.angle n / 45) % 8 := by
  have hin : ¬ (n < f.min ∨ f.max < n) := by omega
  have hhalf : (f.angle n + 45 / 2) / 45 = f.angle n / 45 + 1 / 2 := by ring
  rw [degreesToPosition, if_neg hin, round_eq, ← hhalf]
  rfl

theorem isNearest_position (h : f.min ≤ n ∧ n ≤ f.max) :
    IsNearest (f.angle n) (degreesToPosition n f.min f.max) := by
  rw [position_eq_round h]
  exact isNearest_round _

theorem position_bounds (h : f.min ≤ n ∧ n ≤ f.max) :
    0 ≤ degreesToPosition n f.min f.max ∧ degreesToPosition n f.min f.max < 8 := by
  rw [position_eq_round h]
  omega

theorem position_of_outside (h : ¬ (f.min ≤ n ∧ n ≤ f.max)) :
    degreesToPosition n f.min f.max = 8 := by
  have hout : n < f.min ∨ f.max < n := by omega
  rw [degreesToPosition, if_pos hout]
  rfl

theorem value_of_degreeHat (h : f.isDegreeHat = true) (raw : UInt32) :
    (f.reading raw).value = degreesToPosition (f.number raw) f.min f.max := by
  rw [ValueField.reading, if_pos h]

theorem value_of_positionHat (h : f.isDegreeHat = false) (raw : UInt32) :
    (f.reading raw).value = f.number raw := by
  rw [ValueField.reading, if_neg (by simp [h])]

/-! ### Actions of positions -/

/-- Where positions count from 0 each has the actions of its direction. -/
theorem perm_actions_h0h7 (h₀ : 0 ≤ k) (h₈ : k < 8) :
    (Hat.h0h7.actions k).Perm [Sector.along k, Sector.across k] := by
  interval_cases k <;> decide

/-- Where positions count from 1 each has the actions of the direction before it. -/
theorem actions_of_ne (h : hat ≠ .h0h7) (k : Int) : hat.actions k = Hat.h0h7.actions (k - 1) := by
  unfold Hat.actions
  rw [if_neg h, if_pos rfl, sub_zero]

theorem followsAngles_h0h7 : Hat.h0h7.FollowsAngles := by
  intro f raw hdegree _ _ _
  rw [value_of_degreeHat hdegree]
  constructor
  · intro hin
    obtain ⟨hlow, hhigh⟩ := position_bounds hin
    exact ⟨_, hlow, hhigh, isNearest_position hin, perm_actions_h0h7 hlow hhigh⟩
  · intro hout
    rw [position_of_outside hout]
    rfl

/-- The hat switch of a compass: a value for each degree. -/
def ValueField.compass : ValueField where
  reportId := 0
  page := Page.desktop
  usage := Usage.hatSwitch
  collection := 0
  min := 0
  max := 359
  bits := 16

theorem not_followsAngles (h : hat ≠ .h0h7) : ¬ hat.FollowsAngles := by
  intro hfollows
  have hrest := (hfollows .compass 0xFFFF (by decide) (by decide) (by decide) (by decide)).2
    (by decide)
  rw [actions_of_ne h] at hrest
  exact absurd hrest (by decide +kernel)

/-- The role of a hat switch is the same under every scheme. -/
theorem role_of_hatSwitch (s : Scheme) : s.role ⟨Page.desktop, Usage.hatSwitch⟩ = .hat := by
  obtain ⟨left, right, hat⟩ := s
  cases left <;> cases right <;> cases hat <;> decide

theorem element_of_degreeHat (h : f.isDegreeHat = true) :
    f.element = ⟨Page.desktop, Usage.hatSwitch⟩ := by
  simp only [ValueField.isDegreeHat, Bool.and_eq_true, beq_iff_eq] at h
  rw [ValueField.element, h.1.1, h.1.2]

theorem translate_of_degreeHat (h : f.isDegreeHat = true) (rule : Axis.Rule) (s : Scheme)
    (raw : UInt32) :
    s.translate rule (f.reading raw) = some (s.hat.actions (f.reading raw).value) := by
  have helement : (f.reading raw).element = ⟨Page.desktop, Usage.hatSwitch⟩ := by
    rw [ValueField.reading, if_pos h]
    exact element_of_degreeHat h
  rw [Scheme.translate, helement, role_of_hatSwitch]
  rfl

/-- **Which encodings follow an angle.** The stick follows the angle of every degree hat exactly if
the positions of its encoding count from 0.

A scheme turns the reading of a degree hat into the actions of its position under the encoding. If
positions count from 1, they are those of the direction before the nearest one; at direction 0 the
stick is let go, and at rest it is pulled to the left and up. Any other hat switch is read as it
is. -/
theorem degree_hats_follow_iff (hat : Hat) (f : ValueField) (raw : UInt32) :
    (hat.FollowsAngles ↔ hat = .h0h7) ∧
    (f.isDegreeHat = true →
      (∀ (rule : Axis.Rule) (s : Scheme), s.hat = hat →
        s.translate rule (f.reading raw) = some (hat.actions (f.reading raw).value)) ∧
      (hat ≠ .h0h7 →
        (f.min ≤ f.number raw ∧ f.number raw ≤ f.max →
          ∃ k, 0 ≤ k ∧ k < 8 ∧ IsNearest (f.angle (f.number raw)) k ∧
            if k = 0 then hat.actions (f.reading raw).value = [.releaseXY]
            else (hat.actions (f.reading raw).value).Perm
              [Sector.along (k - 1), Sector.across (k - 1)]) ∧
        (¬ (f.min ≤ f.number raw ∧ f.number raw ≤ f.max) →
          hat.actions (f.reading raw).value = [.pullLeft, .pullUp]))) ∧
    (f.isDegreeHat = false → (f.reading raw).value = f.number raw) := by
  refine ⟨⟨fun hfollows => ?_, ?_⟩, fun hdegree => ⟨?_, fun hne => ?_⟩, fun hposition =>
    value_of_positionHat hposition raw⟩
  · by_contra hne
    exact not_followsAngles hne hfollows
  · rintro rfl
    exact followsAngles_h0h7
  · rintro rule s rfl
    exact translate_of_degreeHat hdegree rule s raw
  · rw [value_of_degreeHat hdegree, actions_of_ne hne]
    constructor
    · intro hin
      obtain ⟨hlow, hhigh⟩ := position_bounds hin
      refine ⟨_, hlow, hhigh, isNearest_position hin, ?_⟩
      split
      next hzero =>
        rw [hzero]
        rfl
      next hzero => exact perm_actions_h0h7 (by omega) (by omega)
    · intro hout
      rw [position_of_outside hout]
      rfl

/-! ### A compass under an encoding that counts from 1 -/

/-- The layout of a device whose only element is such a hat switch. -/
def Layout.compass : Layout where
  reportLength := 3
  values := [⟨⟨0, Page.desktop, 0, Usage.hatSwitch, Usage.hatSwitch, 0, 359, 16⟩, 0, 0⟩]

/-- The fields of this device. -/
def FieldMap.compass : FieldMap where
  reportLength := 3
  buttons := []
  values := [.compass]
  unnumbered := true

/-- Held up, the hat switch of a compass lets the stick go, and at rest it pulls the stick to the
left and up. -/
theorem compass_at_rest_pulls_stick :
    Layout.compass.capabilities.bind FieldMap.ofCapabilities? = some FieldMap.compass ∧
    (let d := ReportDecoder.new FieldMap.compass Layout.compass.file.queries
    let s : Scheme := { hat := .h1h8 }
    let rest := (d.after [(0, [0x00, 0x00])]).decode 0 [0xFF, 0xFF]
    (d.decode 0 [0x00, 0x00]).readings = [⟨⟨Page.desktop, Usage.hatSwitch⟩, 0, 0, 7⟩] ∧
      rest.readings = [⟨⟨Page.desktop, Usage.hatSwitch⟩, 8, 0, 7⟩] ∧
      (d.decode 0 [0x00, 0x00]).readings.map (s.translate Axis.classifyExact) =
        [some [.releaseXY]] ∧
      rest.readings.map (s.translate Axis.classifyExact) = [some [.pullLeft, .pullUp]]) ∧
    ¬ Hat.h1h8.FollowsAngles := by
  exact ⟨by decide, by decide +kernel, not_followsAngles (by decide)⟩

end PadRouter

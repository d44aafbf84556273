import Mathlib.Algebra.Order.Ring.Rat
import Mathlib.Tactic.Linarith
import Mathlib.Tactic.NormNum
import PadRouter.Proofs.Element.History

/-!
# The deflection that an axis shows

An axis has no state of its own. What it shows is what was last emitted for it, and this follows
from decisions that look at one reading only. Two machines with a state say the same from outside.

* `Axis.State.follow` — the machine with two thresholds on each side: a deflection ends as soon as
  the reading comes back over the inner threshold of its own side.
* `Axis.State.settle` — the machine that also holds in the undecided band of the far side.
* `Axis.State.Opposed` — the one place where they differ.
* `getLast?_emissions` — what was last emitted for an element stands in the decoder's table.
* `deflection_settles` — an axis shows the state of the second machine, and that of the first one
  as long as no reading falls into the far band.
-/

namespace PadRouter

namespace Axis.State

/-- The state after a scaled reading, where a deflection ends at the inner threshold of its side. -/
def follow (s : State) (v : Rat) : State :=
  match s with
  | neutral => if 9 / 20 < v then positive else if v < -(9 / 20) then negative else neutral
  | positive => if 7 / 20 ≤ v then positive else if v < -(9 / 20) then negative else neutral
  | negative => if v ≤ -(7 / 20) then negative else if 9 / 20 < v then positive else neutral

/-- The state after a scaled reading, where each reading between two thresholds changes nothing. -/
def settle (s : State) (v : Rat) : State :=
  if 9 / 20 < v then positive
  else if v < -(9 / 20) then negative
  else if -(7 / 20) < v ∧ v < 7 / 20 then neutral
  else s

/-- The axis is deflected, and the reading lies between the thresholds of the other side. -/
def Opposed (s : State) (v : Rat) : Prop :=
  (s = positive ∧ -(9 / 20) ≤ v ∧ v ≤ -(7 / 20)) ∨ (s = negative ∧ 7 / 20 ≤ v ∧ v ≤ 9 / 20)

instance (s : State) (v : Rat) : Decidable (s.Opposed v) :=
  inferInstanceAs (Decidable (_ ∨ _))

variable {s : State} {v : Rat}

/-- Holding is what the decision for one reading leaves undecided. -/
theorem settle_eq_judge (s : State) (v : Rat) :
    s.settle v = (judge (9 / 20) (7 / 20) v).getD s := by
  unfold settle judge
  rcases lt_or_ge v 0 with hneg | hpos
  · have hhigh : ¬ 9 / 20 < v := by linarith
    have hinner : v < 7 / 20 := by linarith
    simp only [hneg, hhigh, hinner, if_true, if_false, and_true]
    split
    · rfl
    · split <;> rfl
  · have hzero : ¬ v < 0 := by linarith
    have hlow : ¬ v < -(9 / 20) := by linarith
    have hinner : -(7 / 20) < v := by linarith
    simp only [hzero, hlow, hinner, if_false, true_and]
    split
    · rfl
    · split <;> rfl

/-- The two machines part only in the undecided band of the far side. -/
theorem follow_eq_settle_iff : s.follow v = s.settle v ↔ ¬ s.Opposed v := by
  unfold settle Opposed
  cases s with
  | neutral =>
    unfold follow
    simp only [reduceCtorEq, false_and, or_self, not_false_eq_true, iff_true]
    split
    · rfl
    · split
      · rfl
      · split <;> rfl
  | positive =>
    unfold follow
    simp only [reduceCtorEq, false_and, or_false, true_and]
    by_cases hinner : 7 / 20 ≤ v
    · have hlow : ¬ v < -(9 / 20) := by linarith
      have hleave : ¬ v < 7 / 20 := not_lt.mpr hinner
      have hfar : ¬ v ≤ -(7 / 20) := by linarith
      simp [hinner, hlow, hleave, hfar]
    · have hhigh : ¬ 9 / 20 < v := by linarith
      simp only [hinner, hhigh, if_false]
      by_cases hlow : v < -(9 / 20)
      · simp [hlow]
      · have hleave : v < 7 / 20 := not_le.mp hinner
        simp [hlow, hleave, not_lt.mp hlow]
  | negative =>
    unfold follow
    simp only [reduceCtorEq, false_and, false_or, true_and]
    by_cases hinner : v ≤ -(7 / 20)
    · have hhigh : ¬ 9 / 20 < v := by linarith
      have hleave : ¬ -(7 / 20) < v := not_lt.mpr hinner
      have hfar : ¬ 7 / 20 ≤ v := by linarith
      simp [hinner, hhigh, hleave, hfar]
    · have hlow : ¬ v < -(9 / 20) := by linarith
      simp only [hinner, hlow, if_false]
      by_cases hhigh : 9 / 20 < v
      · simp [hhigh]
      · have hleave : -(7 / 20) < v := not_le.mp hinner
        simp [hhigh, hleave, not_lt.mp hhigh]

/-- Two machines that start alike show the same after every part of a run exactly if the second one
never comes to a reading where they part. -/
theorem foldl_settle_eq_foldl_follow_iff {vs : List Rat} :
    (∀ front, front <+: vs → front.foldl settle s = front.foldl follow s) ↔
      ∀ front v, front ++ [v] <+: vs → ¬ (front.foldl follow s).Opposed v := by
  constructor
  · intro hagree front v hfront
    have hbefore := hagree front ((List.prefix_append front [v]).trans hfront)
    have hafter := hagree (front ++ [v]) hfront
    simp only [List.foldl_append, List.foldl_cons, List.foldl_nil, hbefore] at hafter
    exact follow_eq_settle_iff.mp hafter.symm
  · intro hnear front
    induction front using List.reverseRecOn with
    | nil => exact fun _ => rfl
    | append_singleton front v ih =>
      intro hfront
      have hbefore := ih ((List.prefix_append front [v]).trans hfront)
      have hstep := follow_eq_settle_iff.mpr (hnear front v hfront)
      simp only [List.foldl_append, List.foldl_cons, List.foldl_nil, hbefore, hstep]

end Axis.State

/-! ### What was emitted last -/

namespace ReadingDecoder

variable {rule : Axis.Rule} {e : Element} {d : ReadingDecoder} {calls : List Call}

theorem emissions_concat (rule : Axis.Rule) (e : Element) (d : ReadingDecoder) (calls : List Call)
    (call : Call) :
    emissions rule e d (calls ++ [call]) =
      emissions rule e d calls ++ ((d.run rule calls).emits? rule e call).toList := by
  induction calls generalizing d with
  | nil => simp [emissions, run]
  | cons first rest ih =>
    have hrun : d.run rule (first :: rest) = (d.perform rule first).run rule rest := rfl
    rw [List.cons_append, emissions, ih, emissions, hrun, List.append_assoc]

/-- What was last emitted for an element stands in the table, until a reset. -/
theorem getLast?_emissions (hstart : d.history.get? e = none) (hreset : .reset ∉ calls) :
    (emissions rule e d calls).getLast? = (d.run rule calls).history.get? e := by
  induction calls using List.reverseRecOn with
  | nil => simpa [emissions, run] using hstart.symm
  | append_singleton calls call ih =>
    have hlast := ih fun hmem => hreset (List.mem_append_left _ hmem)
    have hcall : call ≠ .reset := by
      rintro rfl
      exact hreset (by simp)
    rw [emissions_concat, run_concat, history_perform, if_neg hcall, emits?_eq]
    cases hdecides : call.decides? rule (d.run rule calls).scheme e with
    | none => simpa using hlast
    | some actions =>
      by_cases hold : (d.run rule calls).history.get? e = some actions
      · simp [Option.filter, hold, hlast]
      · simp [Option.filter, hold]

end ReadingDecoder

/-! ### The deflection of an axis -/

/-- The deflection that actions stand for. -/
def Direction.state? (d : Direction) (actions : List Action) : Option Axis.State :=
  [.negative, .neutral, .positive].find? fun s => [d.action s] == actions

theorem Direction.state?_action (d : Direction) (s : Axis.State) :
    d.state? [d.action s] = some s := by
  cases d <;> cases s <;> rfl

/-- The deflection that was last emitted, if there was any, and else the neutral one. -/
def Direction.shown (d : Direction) (last : Option (List Action)) : Axis.State :=
  (last.bind d.state?).getD .neutral

/-- The deflection last emitted for an axis that moves the stick in a direction, after some readings
given to a fresh decoder. -/
def Scheme.deflection (s : Scheme) (e : Element) (d : Direction) (readings : List Reading) :
    Axis.State :=
  d.shown (ReadingDecoder.emissions Axis.classifyExact e { scheme := s }
    (readings.map .decode)).getLast?

/-- The scaled readings of an element. -/
def scaledReadings (e : Element) (readings : List Reading) : List Rat :=
  (readings.filter fun r => r.element == e).map fun r => Axis.normalizeExact r.value r.min r.max

section Deflection

variable {s : Scheme} {e : Element} {d : Direction} {readings : List Reading} {r : Reading}

theorem scaledReadings_concat_of_eq (h : r.element = e) :
    scaledReadings e (readings ++ [r]) =
      scaledReadings e readings ++ [Axis.normalizeExact r.value r.min r.max] := by
  simp [scaledReadings, h]

theorem scaledReadings_concat_of_ne (h : r.element ≠ e) :
    scaledReadings e (readings ++ [r]) = scaledReadings e readings := by
  simp [scaledReadings, h]

open ReadingDecoder in
theorem deflection_eq_shown (s : Scheme) (e : Element) (d : Direction) (readings : List Reading) :
    s.deflection e d readings =
      d.shown ((run Axis.classifyExact { scheme := s } (readings.map .decode)).history.get? e) := by
  unfold Scheme.deflection
  rw [getLast?_emissions rfl (by simp)]

/-- A decision replaces what is shown, and an undecided reading leaves it. -/
theorem shown_or (d : Direction) (decided : Option Axis.State) (last : Option (List Action)) :
    d.shown ((decided.map fun s => [d.action s]).or last) = decided.getD (d.shown last) := by
  cases decided with
  | none => rfl
  | some s => simp [Direction.shown, Direction.state?_action]

open ReadingDecoder in
/-- What one reading does to the deflection. -/
theorem deflection_concat (h : s.role e = .stick d) (readings : List Reading) (r : Reading) :
    s.deflection e d (readings ++ [r]) =
      if r.element = e then
        (s.deflection e d readings).settle (Axis.normalizeExact r.value r.min r.max)
      else s.deflection e d readings := by
  have hscheme : schemeAfter s (readings.map .decode) = s := by
    induction readings using List.reverseRecOn with
    | nil => rfl
    | append_singleton readings r ih => simp [schemeAfter_concat, ih, Call.scheme]
  rw [deflection_eq_shown, deflection_eq_shown, List.map_append, List.map_singleton, run_concat,
    history_perform, if_neg (by simp), scheme_run, hscheme, Call.decides?]
  split
  next he =>
    rw [Scheme.translate, he, h, Axis.State.settle_eq_judge]
    exact shown_or d (Axis.classifyExact r.value r.min r.max) _
  next => rfl

/-- An axis shows what the machine that holds in every band would. -/
theorem deflection_eq_foldl_settle (h : s.role e = .stick d) (readings : List Reading) :
    s.deflection e d readings = (scaledReadings e readings).foldl .settle .neutral := by
  induction readings using List.reverseRecOn with
  | nil => rfl
  | append_singleton readings r ih =>
    rw [deflection_concat h]
    split
    next he => rw [scaledReadings_concat_of_eq he, List.foldl_concat, ih]
    next he => rw [scaledReadings_concat_of_ne he, ih]

/-- Each part of the scaled readings comes from a part of the readings, and the other way round. -/
theorem prefix_scaledReadings_iff {front : List Rat} :
    front <+: scaledReadings e readings ↔
      ∃ early, early <+: readings ∧ scaledReadings e early = front := by
  constructor
  · intro hfront
    induction readings using List.reverseRecOn with
    | nil =>
      have hnil : front = [] := List.prefix_nil.mp hfront
      exact ⟨[], List.nil_prefix, hnil.symm⟩
    | append_singleton readings r ih =>
      by_cases he : r.element = e
      · rw [scaledReadings_concat_of_eq he, List.prefix_concat_iff] at hfront
        rcases hfront with rfl | hfront
        · exact ⟨readings ++ [r], List.prefix_rfl, scaledReadings_concat_of_eq he⟩
        · obtain ⟨early, hearly, heq⟩ := ih hfront
          exact ⟨early, hearly.trans (List.prefix_append _ _), heq⟩
      · rw [scaledReadings_concat_of_ne he] at hfront
        obtain ⟨early, hearly, heq⟩ := ih hfront
        exact ⟨early, hearly.trans (List.prefix_append _ _), heq⟩
  · rintro ⟨early, ⟨late, rfl⟩, rfl⟩
    exact ⟨scaledReadings e late, by simp [scaledReadings]⟩

/-- **The hysteresis of an axis.** After every run of readings the deflection last emitted for an
axis is the state of the machine that holds in all four bands between the thresholds. It is also,
after every part of the run, the state of the machine that ends a deflection at the inner threshold
of its own side, if and only if no reading of the axis falls into the far band of that machine. -/
theorem deflection_settles (s : Scheme) (e : Element) (d : Direction) (h : s.role e = .stick d)
    (readings : List Reading) :
    s.deflection e d readings = (scaledReadings e readings).foldl .settle .neutral ∧
    ((∀ early, early <+: readings →
        s.deflection e d early = (scaledReadings e early).foldl .follow .neutral) ↔
      ∀ front v, front ++ [v] <+: scaledReadings e readings →
        ¬ (front.foldl Axis.State.follow .neutral).Opposed v) := by
  refine ⟨deflection_eq_foldl_settle h readings, ?_⟩
  rw [← Axis.State.foldl_settle_eq_foldl_follow_iff]
  constructor
  · intro hagree front hfront
    obtain ⟨early, hearly, rfl⟩ := prefix_scaledReadings_iff.mp hfront
    rw [← deflection_eq_foldl_settle h]
    exact hagree early hearly
  · intro hagree early hearly
    rw [deflection_eq_foldl_settle h]
    exact hagree _ (prefix_scaledReadings_iff.mpr ⟨early, hearly, rfl⟩)

/-- A stick on Rx that is pushed down to the end and let go only as far as the far band. -/
theorem reversed_stick_holds_deflection :
    Scheme.role { right := .a2a3 } ⟨Page.desktop, Usage.rx⟩ = .stick .verticalReversed ∧
    Scheme.deflection { right := .a2a3 } ⟨Page.desktop, Usage.rx⟩ .verticalReversed
        [.desktop Usage.rx (-128) (-128) 127, .desktop Usage.rx 50 (-128) 127] =
      .negative := by
  have hrole : Scheme.role { right := .a2a3 } ⟨Page.desktop, Usage.rx⟩ =
      .stick .verticalReversed := by decide
  refine ⟨hrole, ?_⟩
  rw [(deflection_settles _ _ _ hrole _).1]
  decide +kernel

/-- The X axis is pushed to the right end and then reads `-2 / 5`: below the inner threshold of the
right side, but between the thresholds of the left one. Nothing is emitted, and the stick stays
right. -/
theorem far_band_keeps_deflection :
    let x : Element := ⟨Page.desktop, Usage.x⟩
    let readings : List Reading := [.desktop Usage.x 1000 0 1000, .desktop Usage.x 300 0 1000]
    Scheme.role {} x = .stick .horizontal ∧
      scaledReadings x readings = [1, -(2 / 5)] ∧
      ReadingDecoder.emissions Axis.classifyExact x {} (readings.map .decode) = [[.pullRight]] ∧
      Scheme.deflection {} x .horizontal readings = .positive ∧
      (scaledReadings x readings).foldl .follow .neutral = Axis.State.neutral ∧
      ¬ ∀ rs, Scheme.deflection {} x .horizontal rs =
        (scaledReadings x rs).foldl .follow .neutral := by
  refine ⟨by decide, by decide +kernel, by decide +kernel, by decide +kernel, by decide +kernel, ?_⟩
  intro hall
  have hfar := hall [.desktop Usage.x 1000 0 1000, .desktop Usage.x 300 0 1000]
  exact absurd hfar (by decide +kernel)

end Deflection

end PadRouter

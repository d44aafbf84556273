import Mathlib.Algebra.Order.Field.Basic
import Mathlib.Algebra.Order.Ring.Rat
import Mathlib.Data.List.Range
import Mathlib.Tactic.FieldSimp
import Mathlib.Tactic.Linarith
import Mathlib.Tactic.NormNum
import Mathlib.Tactic.Ring
import PadRouter.Proofs.Element.History

/-!
# A steady axis does not chatter

The thresholds leave a gap between the readings that are decided for one state and those that are
decided for another. Noise that is narrower than the gap cannot cross it.

* `Axis.State.Covers` — the scaled readings that are decided for a state.
* `Axis.State.eq_of_covers` — two of them that are at most a tenth apart are decided alike.
* `Axis.Steady` — readings that differ by no more than a twentieth of their range.
* `steady_axis_emits_once` — such readings lead to one emission at most: the first decision.
* `alternating_axis_chatters` — with one step more than that, every reading can be emitted.
-/

namespace PadRouter

namespace Axis

/-- The scaled readings that are decided for a state. -/
def State.Covers (v : Rat) : State → Prop
  | negative => v < -(9 / 20)
  | neutral => -(7 / 20) < v ∧ v < 7 / 20
  | positive => 9 / 20 < v

variable {s t : State} {v w : Rat} {min max a b : Int} {raws : List Int}

/-- On each side of zero only two thresholds are asked for; the other two are met there anyway. -/
theorem judge_eq_some_iff : judge (9 / 20) (7 / 20) v = some s ↔ s.Covers v := by
  unfold judge
  rcases lt_or_ge v 0 with hneg | hpos
  · rw [if_pos hneg]
    have hhigh : ¬ 9 / 20 < v := by linarith
    have hinner : v < 7 / 20 := by linarith
    by_cases hlow : v < -(9 / 20)
    · have hleave : ¬ -(7 / 20) < v := by linarith
      cases s <;> simp [State.Covers, hlow, hleave, hhigh]
    · by_cases hleave : -(7 / 20) < v <;>
        cases s <;> simp [State.Covers, hlow, hleave, hhigh, hinner]
  · rw [if_neg (not_lt.mpr hpos)]
    have hlow : ¬ v < -(9 / 20) := by linarith
    have hinner : -(7 / 20) < v := by linarith
    by_cases hhigh : 9 / 20 < v
    · have hleave : ¬ v < 7 / 20 := by linarith
      cases s <;> simp [State.Covers, hhigh, hleave, hlow]
    · by_cases hleave : v < 7 / 20 <;>
        cases s <;> simp [State.Covers, hhigh, hleave, hlow, hinner]

/-- Between two states lies a gap of a tenth, whose ends are not decided either. -/
theorem State.eq_of_covers (hs : s.Covers v) (ht : t.Covers w) (hnear : |v - w| ≤ 1 / 10) :
    s = t := by
  obtain ⟨hbelow, habove⟩ := abs_le.mp hnear
  by_contra hne
  cases s <;> cases t <;> simp only [State.Covers] at hs ht <;> first
    | exact hne rfl
    | linarith

/-! ### Readings that stay together -/

/-- No two readings differ by more than a twentieth of the range. -/
def Steady (min max : Int) (raws : List Int) : Prop :=
  ∀ a ∈ raws, ∀ b ∈ raws, |(a : Rat) - b| ≤ ((max : Rat) - min) / 20

instance (min max : Int) (raws : List Int) : Decidable (Steady min max raws) :=
  inferInstanceAs (Decidable (∀ a ∈ raws, ∀ b ∈ raws, |(a : Rat) - b| ≤ ((max : Rat) - min) / 20))

theorem normalizeExact_sub (h : min < max) (a b : Int) :
    normalizeExact a min max - normalizeExact b min max =
      2 * ((a : Rat) - b) / ((max : Rat) - min) := by
  have hne : max ≠ min := by omega
  unfold normalizeExact
  rw [if_neg hne, if_neg hne]
  push_cast
  ring

/-- A twentieth of the range is a tenth of the scale, which goes from `-1` to `1`. -/
theorem normalizeExact_near (h : min < max) (hab : |(a : Rat) - b| ≤ ((max : Rat) - min) / 20) :
    |normalizeExact a min max - normalizeExact b min max| ≤ 1 / 10 := by
  have hwidth : (0 : Rat) < (max : Rat) - min := sub_pos.mpr (by exact_mod_cast h)
  have htwo : |(2 : Rat)| = 2 := abs_of_pos (by norm_num)
  rw [normalizeExact_sub h, abs_div, abs_mul, abs_of_pos hwidth, htwo, div_le_iff₀ hwidth]
  linarith

/-- Steady readings are decided alike, as far as they are decided. -/
theorem Steady.eq_of_classify (hsteady : Steady min max raws) (h : min < max) (ha : a ∈ raws)
    (hb : b ∈ raws) (hs : classifyExact a min max = some s)
    (ht : classifyExact b min max = some t) : s = t :=
  State.eq_of_covers (judge_eq_some_iff.mp hs) (judge_eq_some_iff.mp ht)
    (normalizeExact_near h (hsteady a ha b hb))

end Axis

/-! ### What a decoder emits -/

namespace ReadingDecoder

variable {rule : Axis.Rule} {e : Element} {d : ReadingDecoder} {calls : List Call}

/-- Only decisions are emitted. -/
theorem emissions_sublist (rule : Axis.Rule) (e : Element) (d : ReadingDecoder)
    (calls : List Call) : (emissions rule e d calls).Sublist (decisions rule e d.scheme calls) := by
  induction calls generalizing d with
  | nil => exact List.Sublist.refl _
  | cons call rest ih =>
    have hrest := ih (d.perform rule call)
    rw [scheme_perform] at hrest
    rw [emissions, decisions, emits?_eq]
    refine List.Sublist.append ?_ hrest
    cases call.decides? rule d.scheme e with
    | none => exact List.Sublist.refl _
    | some actions =>
      rw [Option.filter_some]
      split
      · exact List.Sublist.refl _
      · exact List.nil_sublist _

/-- If all decisions about an element are the same, one of them is emitted at most. -/
theorem length_emissions_le_one (h : .reset ∉ calls)
    (halike : ∀ a ∈ decisions rule e d.scheme calls, ∀ b ∈ decisions rule e d.scheme calls, a = b) :
    (emissions rule e d calls).length ≤ 1 := by
  have hchain : (emissions rule e d calls).IsChain (· ≠ ·) := isChain_emissions h
  have hsub := emissions_sublist rule e d calls
  match hemissions : emissions rule e d calls with
  | [] => exact Nat.zero_le 1
  | [_] => exact Nat.le_refl 1
  | a :: b :: rest =>
    -- the first two would differ
    rw [hemissions] at hchain hsub
    have hne : a ≠ b := (List.isChain_cons_cons.mp hchain).1
    exact absurd (halike a (hsub.subset (by simp)) b (hsub.subset (by simp))) hne

theorem head?_destutter' {α : Type} (R : α → α → Prop) [DecidableRel R] (a : α) (l : List α) :
    (l.destutter' R a).head? = some a := by
  induction l with
  | nil => rfl
  | cons b rest ih =>
    by_cases hab : R a b
    · rw [List.destutter'_cons_pos rest hab, List.head?_cons]
    · rw [List.destutter'_cons_neg rest hab, ih]

/-- A decoder that knows nothing of an element begins with the first decision. -/
theorem head?_emissions (hstart : d.history.get? e = none) (h : .reset ∉ calls) :
    (emissions rule e d calls).head? = (decisions rule e d.scheme calls).head? := by
  rw [emissions_of_fresh hstart h]
  cases decisions rule e d.scheme calls with
  | nil => rfl
  | cons a rest => rw [List.destutter_cons', head?_destutter', List.head?_cons]

end ReadingDecoder

/-! ### Axes -/

section Axes

open ReadingDecoder

variable {s : Scheme} {e : Element} {d : Direction} {min max : Int} {raws : List Int}

/-- An element reports these values, one after the other. -/
def reports (e : Element) (min max : Int) (raws : List Int) : List Call :=
  raws.map fun v => .decode ⟨e, v, min, max⟩

theorem reset_not_mem_reports : .reset ∉ reports e min max raws := by
  simp [reports]

theorem decisions_reports (rule : Axis.Rule) (h : s.role e = .stick d) :
    decisions rule e s (reports e min max raws) =
      raws.filterMap fun v => (rule v min max).map fun state => [d.action state] := by
  induction raws with
  | nil => rfl
  | cons v rest ih =>
    have hdecides : Call.decides? rule s e (.decode ⟨e, v, min, max⟩) =
        (rule v min max).map fun state => [d.action state] := by
      simp [Call.decides?, Scheme.translate, h, Role.actions?]
    have hcons : decisions rule e s (reports e min max (v :: rest)) =
        ((rule v min max).map fun state => [d.action state]).toList ++
          decisions rule e s (reports e min max rest) := by
      rw [← hdecides]
      rfl
    rw [hcons, ih, List.filterMap_cons]
    cases rule v min max <;> rfl

/-- All decisions about a steady axis are the same. -/
theorem decisions_alike (h : s.role e = .stick d) (hrange : min < max)
    (hsteady : Axis.Steady min max raws) :
    ∀ x ∈ decisions Axis.classifyExact e s (reports e min max raws),
      ∀ y ∈ decisions Axis.classifyExact e s (reports e min max raws), x = y := by
  rw [decisions_reports Axis.classifyExact h]
  intro x hx y hy
  obtain ⟨a, ha, hxa⟩ := List.mem_filterMap.mp hx
  obtain ⟨b, hb, hyb⟩ := List.mem_filterMap.mp hy
  obtain ⟨state, hstate, rfl⟩ := Option.map_eq_some_iff.mp hxa
  obtain ⟨state', hstate', rfl⟩ := Option.map_eq_some_iff.mp hyb
  rw [hsteady.eq_of_classify hrange ha hb hstate hstate']

/-- **A steady axis does not chatter.** If the values of an axis differ by no more than a twentieth
of its range, a fresh decoder emits at most one of them, and this is the first one that is decided.
No decoder emits more, whatever it has seen before and whatever other elements report in between. -/
theorem steady_axis_emits_once (s : Scheme) (e : Element) (d : Direction) (h : s.role e = .stick d)
    (min max : Int) (hrange : min < max) (raws : List Int) (hsteady : Axis.Steady min max raws) :
    (emissions Axis.classifyExact e { scheme := s } (reports e min max raws)).length ≤ 1 ∧
    (emissions Axis.classifyExact e { scheme := s } (reports e min max raws)).head? =
      (raws.findSome? fun v => Axis.classifyExact v min max).map (fun state => [d.action state]) ∧
    ∀ decoder : ReadingDecoder, decoder.scheme = s → ∀ calls : List Call,
      calls.filter (Call.concerns e) = reports e min max raws →
      (emissions Axis.classifyExact e decoder calls).length ≤ 1 := by
  have honce : ∀ decoder : ReadingDecoder, decoder.scheme = s →
      (emissions Axis.classifyExact e decoder (reports e min max raws)).length ≤ 1 := by
    rintro decoder rfl
    exact length_emissions_le_one reset_not_mem_reports (decisions_alike h hrange hsteady)
  refine ⟨honce _ rfl, ?_, fun decoder hscheme calls hcalls => ?_⟩
  · rw [head?_emissions rfl reset_not_mem_reports, decisions_reports Axis.classifyExact h,
      List.head?_filterMap, List.map_findSome?]
    rfl
  · rw [← emissions_filter (d := decoder) rfl rfl, hcalls]
    exact honce decoder hscheme

/-- The X axis trembles about the boundary between the right and the undecided. -/
theorem trembling_stick_pulls_once :
    let raws := [700, 726, 710, 690, 735, 700, 740]
    Scheme.role {} ⟨Page.desktop, Usage.x⟩ = .stick .horizontal ∧ (0 : Int) < 1000 ∧
      Axis.Steady 0 1000 raws ∧
      (emissions Axis.classifyExact ⟨Page.desktop, Usage.x⟩ { scheme := {} }
        (reports ⟨Page.desktop, Usage.x⟩ 0 1000 raws)).head? = some [.pullRight] ∧
      (emissions Axis.classifyExact ⟨Page.desktop, Usage.x⟩ { scheme := {} }
        (reports ⟨Page.desktop, Usage.x⟩ 0 1000 raws)).length ≤ 1 := by
  intro raws
  have hrole : Scheme.role {} ⟨Page.desktop, Usage.x⟩ = .stick .horizontal := by decide
  have hsteady : Axis.Steady 0 1000 raws := by decide +kernel
  have honce := steady_axis_emits_once {} _ _ hrole 0 1000 (by decide) raws hsteady
  refine ⟨hrole, by decide, hsteady, honce.2.1.trans ?_, honce.1⟩
  decide +kernel

/-! ### The margin cannot be wider -/

/-- Readings that go to and fro over the gap above neutral, in the range of width `20 * (2 * k + 1)`
that begins at `min`. They are `2 * k + 2` apart. -/
def acrossGap (min : Int) (k i : Nat) : Int :=
  if i % 2 = 0 then min + (27 * k + 13) else min + (29 * k + 15)

theorem normalizeExact_add (min : Int) (k : Nat) (n : Int) :
    Axis.normalizeExact (min + n) min (min + 20 * (2 * k + 1)) = n / (10 * (2 * k + 1)) - 1 := by
  have hne : min + 20 * (2 * k + 1) ≠ min := by omega
  have hwidth : (2 * k + 1 : Rat) ≠ 0 := by positivity
  rw [Axis.normalizeExact, if_neg hne]
  push_cast
  field_simp
  ring

theorem classifyExact_acrossGap (min : Int) (k i : Nat) :
    Axis.classifyExact (acrossGap min k i) min (min + 20 * (2 * k + 1)) =
      some (if i % 2 = 0 then .neutral else .positive) := by
  have hwidth : (0 : Rat) < 10 * (2 * k + 1) := by positivity
  have hk : (0 : Rat) ≤ k := Nat.cast_nonneg k
  rw [Axis.classifyExact, Axis.judge_eq_some_iff, acrossGap]
  split
  · rw [normalizeExact_add]
    constructor
    · rw [lt_sub_iff_add_lt, lt_div_iff₀ hwidth]
      push_cast
      linarith
    · rw [sub_lt_iff_lt_add, div_lt_iff₀ hwidth]
      push_cast
      linarith
  · rw [normalizeExact_add]
    change _ < _
    rw [lt_sub_iff_add_lt, lt_div_iff₀ hwidth]
    push_cast
    linarith

/-- Two emissions in a row differ, since the readings on the two sides are decided differently. -/
theorem action_across_ne (d : Direction) (i : Nat) :
    [d.action (if i % 2 = 0 then .neutral else .positive)] ≠
      [d.action (if (i + 1) % 2 = 0 then .neutral else .positive)] := by
  rcases Nat.mod_two_eq_zero_or_one i with heven | hodd
  · have hnext : ¬ (i + 1) % 2 = 0 := by omega
    rw [if_pos heven, if_neg hnext]
    cases d <;> decide
  · have hi : ¬ i % 2 = 0 := by omega
    have hnext : (i + 1) % 2 = 0 := by omega
    rw [if_neg hi, if_pos hnext]
    cases d <;> decide

/-- With readings that differ by one more than a twentieth of the range, every reading can be
emitted, however many there are. -/
theorem alternating_axis_chatters (s : Scheme) (e : Element) (d : Direction)
    (h : s.role e = .stick d) (min : Int) (k n : Nat) :
    (emissions Axis.classifyExact e { scheme := s }
      (reports e min (min + 20 * (2 * k + 1)) ((List.range n).map (acrossGap min k)))).length =
      n := by
  have hdecisions : decisions Axis.classifyExact e s
      (reports e min (min + 20 * (2 * k + 1)) ((List.range n).map (acrossGap min k))) =
        (List.range n).map fun i => [d.action (if i % 2 = 0 then .neutral else .positive)] := by
    rw [decisions_reports Axis.classifyExact h, List.filterMap_map, ← List.filterMap_eq_map]
    refine List.filterMap_congr fun i _ => ?_
    rw [Function.comp_apply, classifyExact_acrossGap]
    rfl
  have hchain : ((List.range n).map fun i : Nat =>
      [d.action (if i % 2 = 0 then .neutral else .positive)]).IsChain (· ≠ ·) := by
    rw [List.isChain_map, List.isChain_range]
    exact fun i _ => action_across_ne d i
  rw [emissions_of_fresh rfl reset_not_mem_reports, hdecisions,
    List.destutter_of_isChain _ _ hchain, List.length_map, List.length_range]

end Axes

end PadRouter

/-!
# Axis decisions with hysteresis

A reading of an analog axis is scaled from its range to `[-1, 1]` and judged negative, neutral or
positive. A deflection begins beyond `0.45` and ends below `0.35`; between the two nothing is
decided, so that a stick resting near a boundary does not chatter.

* `Axis.judge` — the decision for a scaled value, over any kind of numbers.
* `Axis.classify` — the decision for a reading, in floating point. This is the one that runs.
* `Axis.classifyExact` — the same with rational numbers, for stating laws.
-/

namespace PadRouter.Axis

/-- How an axis is deflected. -/
inductive State
  | negative
  | neutral
  | positive
  deriving DecidableEq, Repr, Inhabited

/-- The deflection seen from the other side. -/
def State.reversed : State → State
  | negative => positive
  | neutral => neutral
  | positive => negative

@[simp]
theorem State.reversed_reversed (s : State) : s.reversed.reversed = s := by cases s <;> rfl

/-- The decision for a scaled value `v`: deflected beyond `enter`, neutral below `leave`, and
otherwise `none`, which means to keep what was decided before. -/
def judge {α : Type} [OfNat α 0] [Neg α] [LT α] [DecidableLT α] (enter leave v : α) :
    Option State :=
  if v < 0 then
    if v < -enter then some .negative
    else if -leave < v then some .neutral
    else none
  else if enter < v then some .positive
  else if v < leave then some .neutral
  else none

/-- A rule that turns a reading and its range into a decision. -/
abbrev Rule := (raw min max : Int) → Option State

/-! ### Floating point -/

/-- A reading scaled to `[-1, 1]`. An empty range gives `0`; readings outside of the range lie
beyond `±1`. -/
def normalize (raw min max : Int) : Float :=
  if max = min then 0
  else Float.ofInt (raw - min) / Float.ofInt (max - min) * 2 - 1

/-- The decision for a scaled value. -/
def decideNormalized (v : Float) : Option State := judge 0.45 0.35 v

/-- The decision for a reading. -/
def classify : Rule := fun raw min max => decideNormalized (normalize raw min max)

/-! ### Rational numbers -/

/-- A reading scaled to `[-1, 1]`, without rounding. -/
def normalizeExact (raw min max : Int) : Rat :=
  if max = min then 0
  else ((raw - min : Int) : Rat) / ((max - min : Int) : Rat) * 2 - 1

/-- The decision for a reading, without rounding. -/
def classifyExact : Rule := fun raw min max => judge (9 / 20) (7 / 20) (normalizeExact raw min max)

end PadRouter.Axis

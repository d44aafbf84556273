import Mathlib.Data.List.Induction
import PadRouter.Key.HeldKeys

/-!
# What held keys make of a stick

Keys go down and up in any order, some twice, some without the other half. The flags tell which
directions are held, and the stick follows the flags.

* `HeldKeys.strike` — one event of a bound key, and `HeldKeys.get_strike`, what it does to a flag.
* `HeldKeys.Call`, `HeldKeys.run`, `HeldKeys.emitted` — events told by bound actions or by keys and
  the tables of their time, the flags after them and the actions that they send.
* `HeldKeys.get_run` — a flag is the latest event of its direction.
* `HeldKeys.Shows` — an action puts an axis where the flags want it.
* `HeldKeys.shows_last` — the last action on an axis does.
* `HeldKeys.stick_follows_keys` — all of this for every list of events.
-/

namespace PadRouter

/-- The axis of a direction. -/
def Pull.axis : Pull → StickAxis
  | up | down => .y
  | left | right => .x

/-- The action that centres an axis. -/
def StickAxis.centre : StickAxis → Action
  | x => .releaseX
  | y => .releaseY

/-- Whether an action moves or centres the stick along an axis. -/
def Action.isOn (axis : StickAxis) (a : Action) : Bool :=
  a.pullAxis? == some axis || a == axis.centre || a == .releaseXY

namespace Pull

theorem release_eq_centre (d : Pull) : d.release = d.axis.centre := by cases d <;> rfl

theorem axis_opposite (d : Pull) : d.opposite.axis = d.axis := by cases d <;> rfl

theorem opposite_ne (d : Pull) : d.opposite ≠ d := by cases d <;> decide

theorem eq_or_eq_opposite {d e : Pull} (h : d.axis = e.axis) : d = e ∨ d = e.opposite := by
  cases d <;> cases e <;> first | exact .inl rfl | exact .inr rfl | cases h

theorem isOn_press (d : Pull) (axis : StickAxis) :
    d.press.isOn axis = true ↔ d.axis = axis := by
  cases d <;> cases axis <;> decide

theorem isOn_release (d : Pull) (axis : StickAxis) :
    d.release.isOn axis = true ↔ d.axis = axis := by
  cases d <;> cases axis <;> decide

end Pull

namespace Bindable

theorem letGo_of_pull {b : Bindable} {d : Pull} (h : b.pull? = some d) : b.letGo = d.release := by
  cases b <;> cases h <;> rfl

theorem press_of_pull {b : Bindable} {d : Pull} (h : b.pull? = some d) : b.press = d.press := by
  cases b <;> cases h <;> rfl

theorem not_isOn {b : Bindable} (h : b.pull? = none) (axis : StickAxis) :
    b.press.isOn axis = false ∧ b.letGo.isOn axis = false := by
  cases b <;> cases h <;> cases axis <;> exact ⟨rfl, rfl⟩

end Bindable

namespace HeldKeys

/-! ### One event -/

/-- A key bound to `b` goes down or up. -/
def strike (h : HeldKeys) (down : Bool) (b : Bindable) : HeldKeys × Action :=
  if down then h.press b else h.release b

variable {h : HeldKeys} {down : Bool} {b : Bindable} {d : Pull} {axis : StickAxis} {a : Action}

theorem get_strike (h : HeldKeys) (down : Bool) (b : Bindable) (d : Pull) :
    (h.strike down b).1.get d = if b.pull? = some d then down else h.get d := by
  have hflag : ∀ p : Pull, (h.set p down).get d = if p = d then down else h.get d := by
    intro p
    rw [get_set]
    simp only [eq_comm]
  cases down <;> cases hb : b.pull? <;> simp [strike, press, release, hb, hflag]

/-- Fire and the buttons of a mouse are plain edges. -/
theorem action_strike_of_edge (hb : b.pull? = none) :
    (h.strike down b).2 = if down then b.press else b.letGo := by
  cases down <;> simp [strike, press, release, hb]

theorem action_strike_of_pull (hb : b.pull? = some d) :
    (h.strike down b).2 =
      if down then d.press else if h.get d.opposite then d.opposite.press else d.release := by
  cases down
  · simp [strike, release, hb, Bindable.letGo_of_pull hb]
  · simp [strike, press, Bindable.press_of_pull hb]

/-- A direction that is held is pulled to, and the axis is centred if none is. -/
structure Shows (h : HeldKeys) (axis : StickAxis) (a : Action) : Prop where
  pulled : (∃ d : Pull, d.axis = axis ∧ h.get d = true) →
    ∃ d : Pull, d.axis = axis ∧ h.get d = true ∧ a = d.press
  centred : (∀ d : Pull, d.axis = axis → h.get d = false) → a = axis.centre

theorem shows_of_held (hd : h.get d = true) : h.Shows d.axis d.press where
  pulled _ := ⟨d, rfl, hd, rfl⟩
  centred hnone := by
    have := hnone d rfl
    rw [hd] at this
    cases this

theorem shows_of_free (hd : h.get d = false) (hopposite : h.get d.opposite = false) :
    h.Shows d.axis d.release where
  pulled hheld := by
    obtain ⟨e, he, hget⟩ := hheld
    rcases Pull.eq_or_eq_opposite he with rfl | rfl
    · rw [hd] at hget
      cases hget
    · rw [hopposite] at hget
      cases hget
  centred _ := d.release_eq_centre

/-- Only the flags of the axis count. -/
theorem Shows.congr {h' : HeldKeys} (hshows : h.Shows axis a)
    (hflags : ∀ d : Pull, d.axis = axis → h'.get d = h.get d) : h'.Shows axis a where
  pulled := by
    rintro ⟨d, hd, hget⟩
    rw [hflags d hd] at hget
    obtain ⟨e, he, hheld, ha⟩ := hshows.pulled ⟨d, hd, hget⟩
    exact ⟨e, he, (hflags e he).trans hheld, ha⟩
  centred hnone := hshows.centred fun d hd => (hflags d hd).symm.trans (hnone d hd)

/-- The action of a direction key puts its axis where the flags want it. -/
theorem shows_strike (hb : b.pull? = some d) :
    (h.strike down b).1.Shows d.axis (h.strike down b).2 := by
  have hflag := h.get_strike down b
  rw [action_strike_of_pull hb]
  cases down with
  | true => exact shows_of_held (by rw [hflag, if_pos hb])
  | false =>
    have hself : (h.strike false b).1.get d = false := by rw [hflag, if_pos hb]
    have hother : (h.strike false b).1.get d.opposite = h.get d.opposite := by
      rw [hflag, hb, if_neg]
      exact fun heq => d.opposite_ne (Option.some.inj heq).symm
    simp only [Bool.false_eq_true, if_false]
    split
    next hheld =>
      rw [← Pull.axis_opposite]
      exact shows_of_held (hother.trans hheld)
    next hfree => exact shows_of_free hself (hother.trans (Bool.eq_false_iff.mpr hfree))

theorem isOn_strike : (h.strike down b).2.isOn axis = true ↔ b.pull?.map Pull.axis = some axis := by
  cases hb : b.pull? with
  | none =>
    have hedge := Bindable.not_isOn hb axis
    rw [action_strike_of_edge hb]
    cases down <;> simp [hedge]
  | some d =>
    rw [action_strike_of_pull hb, Option.map_some, Option.some_inj]
    split
    · exact d.isOn_press axis
    · split
      · rw [Pull.isOn_press, Pull.axis_opposite]
      · exact d.isOn_release axis

/-! ### Many events -/

/-- One event, told by the bound action or by the key and the table of the time. -/
inductive Call
  | press (action : Bindable)
  | release (action : Bindable)
  | keyDown (table : KeyMap) (key : Key)
  | keyUp (table : KeyMap) (key : Key)

namespace Call

/-- Whether a key goes down, and its bound action. There is none for a key without a binding. -/
def stroke? : Call → Option (Bool × Bindable)
  | press b => some (true, b)
  | release b => some (false, b)
  | keyDown m key => (m.lookup key).map (true, ·)
  | keyUp m key => (m.lookup key).map (false, ·)

/-- The direction of an event. -/
def pull? (call : Call) : Option Pull := call.stroke?.bind fun s => s.2.pull?

/-- Whether the key of a direction goes down or up. -/
def about? (d : Pull) (call : Call) : Option Bool :=
  if call.pull? = some d then call.stroke?.map (·.1) else none

end Call

/-- What an event does to the flags, and the action that it sends. -/
def perform (h : HeldKeys) : Call → HeldKeys × Option Action
  | .press b => ((h.press b).1, some (h.press b).2)
  | .release b => ((h.release b).1, some (h.release b).2)
  | .keyDown m key => h.keyDown m key
  | .keyUp m key => h.keyUp m key

/-- The flags after some events. -/
def run (h : HeldKeys) (calls : List Call) : HeldKeys := calls.foldl (fun h c => (h.perform c).1) h

/-- The actions that some events send, in order. -/
def emitted : HeldKeys → List Call → List Action
  | _, [] => []
  | h, call :: rest => (h.perform call).2.toList ++ emitted (h.perform call).1 rest

variable {call : Call} {calls : List Call}

theorem perform_of_unbound (hcall : call.stroke? = none) : h.perform call = (h, none) := by
  cases call with
  | press b => cases hcall
  | release b => cases hcall
  | keyDown m key => simp [perform, keyDown, Option.map_eq_none_iff.mp hcall]
  | keyUp m key => simp [perform, keyUp, Option.map_eq_none_iff.mp hcall]

theorem perform_of_stroke (hcall : call.stroke? = some (down, b)) :
    h.perform call = ((h.strike down b).1, some (h.strike down b).2) := by
  cases call with
  | press b' =>
    cases hcall
    rfl
  | release b' =>
    cases hcall
    rfl
  | keyDown m key =>
    obtain ⟨b', hlookup, hstroke⟩ := Option.map_eq_some_iff.mp hcall
    cases hstroke
    simp [perform, keyDown, hlookup, strike]
  | keyUp m key =>
    obtain ⟨b', hlookup, hstroke⟩ := Option.map_eq_some_iff.mp hcall
    cases hstroke
    simp [perform, keyUp, hlookup, strike]

theorem get_perform (h : HeldKeys) (call : Call) (d : Pull) :
    (h.perform call).1.get d = (call.about? d).getD (h.get d) := by
  unfold Call.about? Call.pull?
  cases hcall : call.stroke? with
  | none => simp [perform_of_unbound hcall]
  | some s =>
    rw [perform_of_stroke hcall, get_strike]
    by_cases hb : s.2.pull? = some d <;> simp [hb]

theorem run_concat (h : HeldKeys) (calls : List Call) (call : Call) :
    h.run (calls ++ [call]) = ((h.run calls).perform call).1 := by
  simp [run]

theorem emitted_concat (h : HeldKeys) (calls : List Call) (call : Call) :
    emitted h (calls ++ [call]) = emitted h calls ++ ((h.run calls).perform call).2.toList := by
  induction calls generalizing h with
  | nil => simp [emitted, run]
  | cons first rest ih =>
    simp only [List.cons_append, emitted, ih, List.append_assoc]
    rfl

/-- A flag is the latest event of its direction, or what it was if there was none. -/
theorem get_run (h : HeldKeys) (calls : List Call) (d : Pull) :
    (h.run calls).get d = (calls.filterMap (Call.about? d)).getLast?.getD (h.get d) := by
  induction calls using List.reverseRecOn with
  | nil => rfl
  | append_singleton calls call ih =>
    rw [run_concat, get_perform, ih, List.filterMap_append]
    cases hcall : call.about? d <;> simp [hcall]

/-- An event that sends something on an axis leaves the stick where the flags want it; any other
event leaves flags and stick of the axis alone. -/
theorem shows_perform (h : HeldKeys) (call : Call) (axis : StickAxis) :
    (∃ a, (h.perform call).2 = some a ∧ a.isOn axis = true ∧ (h.perform call).1.Shows axis a ∧
      call.pull?.map Pull.axis = some axis) ∨
    ((∀ a, (h.perform call).2 = some a → a.isOn axis = false) ∧
      (∀ d : Pull, d.axis = axis → (h.perform call).1.get d = h.get d) ∧
      call.pull?.map Pull.axis ≠ some axis) := by
  have hquiet : call.pull?.map Pull.axis ≠ some axis →
      ∀ d : Pull, d.axis = axis → (h.perform call).1.get d = h.get d := by
    intro hother d hd
    have hnone : call.about? d = none := by
      rw [Call.about?, if_neg]
      intro hpull
      rw [hpull, Option.map_some, hd] at hother
      exact hother rfl
    rw [get_perform, hnone, Option.getD_none]
  cases hcall : call.stroke? with
  | none =>
    have hpull : call.pull? = none := by simp [Call.pull?, hcall]
    refine .inr ⟨?_, hquiet (by simp [hpull]), by simp [hpull]⟩
    simp [perform_of_unbound hcall]
  | some s =>
    have hpull : call.pull? = s.2.pull? := by simp [Call.pull?, hcall]
    have hperform := perform_of_stroke (h := h) hcall
    have hon : (h.strike s.1 s.2).2.isOn axis = true ↔ call.pull?.map Pull.axis = some axis := by
      rw [hpull]
      exact isOn_strike
    by_cases haxis : call.pull?.map Pull.axis = some axis
    · left
      obtain ⟨d, hd, rfl⟩ := Option.map_eq_some_iff.mp haxis
      rw [hperform]
      exact ⟨_, rfl, hon.mpr haxis, shows_strike (hpull ▸ hd), haxis⟩
    · right
      refine ⟨fun a ha => ?_, hquiet haxis, haxis⟩
      rw [hperform] at ha
      cases ha
      exact Bool.eq_false_iff.mpr fun h' => haxis (hon.mp h')

/-- The last action on an axis shows the flags; there is one as soon as there was an event. -/
theorem shows_last (h : HeldKeys) (calls : List Call) (axis : StickAxis) :
    (∃ a, ((emitted h calls).filter (Action.isOn axis)).getLast? = some a ∧
      (h.run calls).Shows axis a) ∨
    ((emitted h calls).filter (Action.isOn axis) = [] ∧
      ∀ call ∈ calls, call.pull?.map Pull.axis ≠ some axis) := by
  induction calls using List.reverseRecOn with
  | nil => exact .inr ⟨rfl, fun call hcall => absurd hcall List.not_mem_nil⟩
  | append_singleton calls call ih =>
    rw [emitted_concat, run_concat, List.filter_append]
    rcases (h.run calls).shows_perform call axis with ⟨a, ha, hon, hshows, -⟩ | ⟨hoff, hsame, hcall⟩
    · refine .inl ⟨a, ?_, hshows⟩
      simp [ha, hon]
    · -- the action, if there is one, is not on this axis
      have hnothing : ((h.run calls).perform call).2.toList.filter (Action.isOn axis) = [] := by
        rw [List.filter_eq_nil_iff]
        intro a ha
        simp [hoff a (Option.mem_toList.mp ha)]
      rw [hnothing, List.append_nil]
      rcases ih with ⟨a, hlast, hshows⟩ | ⟨hnone, hcalls⟩
      · exact .inl ⟨a, hlast, hshows.congr hsame⟩
      · refine .inr ⟨hnone, fun c hc => ?_⟩
        rcases List.mem_append.mp hc with hc | hc
        · exact hcalls c hc
        · rw [List.mem_singleton.mp hc]
          exact hcall

/-- **The stick follows the keys.** After any events a flag is set exactly when the latest event of
its direction was a press. On an axis that has had an event, the last action pulls to a direction
that is held, or centres the axis if neither is. An event leaves the flags of other axes alone, and
so do fire and the buttons with all flags. A bound key sends exactly one action, that of its binding;
a key without a binding sends none and changes nothing. -/
theorem stick_follows_keys (calls : List Call) :
    let h := run {} calls
    (∀ d, h.get d = true ↔ (calls.filterMap (Call.about? d)).getLast? = some true) ∧
    (∀ axis, (∃ call ∈ calls, call.pull?.map Pull.axis = some axis) →
      ∃ a, ((emitted {} calls).filter (Action.isOn axis)).getLast? = some a ∧ h.Shows axis a) ∧
    (∀ call d, call.pull?.map Pull.axis ≠ some d.axis → (h.perform call).1.get d = h.get d) ∧
    ∀ (m : KeyMap) (key : Key),
      (∀ b, m.lookup key = some b →
        h.keyDown m key = ((h.press b).1, some (h.press b).2) ∧
          h.keyUp m key = ((h.release b).1, some (h.release b).2)) ∧
      (m.lookup key = none → h.keyDown m key = (h, none) ∧ h.keyUp m key = (h, none)) := by
  intro h
  refine ⟨fun d => ?_, fun axis hevent => ?_, fun call d hother => ?_, fun m key => ⟨?_, ?_⟩⟩
  · have hflag : h.get d = (calls.filterMap (Call.about? d)).getLast?.getD false := by
      cases d <;> exact get_run {} calls _
    rw [hflag]
    cases (calls.filterMap (Call.about? d)).getLast? <;> simp
  · rcases shows_last {} calls axis with hlast | ⟨-, hnone⟩
    · exact hlast
    · obtain ⟨call, hmem, hcall⟩ := hevent
      exact absurd hcall (hnone call hmem)
  · rcases h.shows_perform call d.axis with ⟨_, -, -, -, haxis⟩ | ⟨-, hsame, -⟩
    · exact absurd haxis hother
    · exact hsame d rfl
  · intro b hlookup
    simp [keyDown, keyUp, hlookup]
  · intro hlookup
    simp [keyDown, keyUp, hlookup]

end HeldKeys

end PadRouter

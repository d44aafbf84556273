import PadRouter.Proofs.Element.History

/-!
# What an emulated joystick shows

An emulated joystick is a stick and a fire button. Each action sets some of its components, and the
last one to set a component wins. So actions that were applied last on all their components can be
left out when they come again, and this is all that a decoder leaves out.

* `Joystick`, `Joystick.apply` — the emulated joystick and what an action does to it.
* `Component`, `Action.components` — its parts, and those that an action sets.
* `Joystick.applyAll_self`, `Joystick.applyAll_comm` — actions may be repeated, and those on
  different components may change places.
* `ReadingDecoder.sent`, `Scheme.translations` — the actions that a decoder lets through, and those
  of all readings.
* `Scheme.Unshared` — no two elements act on one component.
* `ReadingDecoder.Reflects` — the joystick shows all that stands in the table of a decoder;
  `ReadingDecoder.Reflects.decode` — a reading keeps it so.
* `ReadingDecoder.repetitions_change_nothing` — after every reading the joystick is where it would
  be if nothing had been left out.
-/

namespace PadRouter

/-- A part of the emulated joystick. -/
inductive Component
  | axis (axis : StickAxis)
  | fire
  deriving DecidableEq, Repr

/-- The components that an action sets. -/
def Action.components : Action → List Component
  | pullUp | pullDown | releaseY => [.axis .y]
  | pullLeft | pullRight | releaseX => [.axis .x]
  | releaseXY => [.axis .x, .axis .y]
  | pressFire | releaseFire => [.fire]
  | pressLeft | pressRight | releaseLeft | releaseRight => []

/-- The emulated joystick: how its stick is pulled along each axis, where left and up are negative,
and whether fire is down. -/
structure Joystick where
  x : Axis.State := .neutral
  y : Axis.State := .neutral
  fire : Bool := false
  deriving DecidableEq, Repr, Inhabited

namespace Joystick

/-- What an action does to the joystick. Actions for the buttons of a mouse do nothing. -/
def apply (j : Joystick) : Action → Joystick
  | .pullLeft => { j with x := .negative }
  | .pullRight => { j with x := .positive }
  | .releaseX => { j with x := .neutral }
  | .pullUp => { j with y := .negative }
  | .pullDown => { j with y := .positive }
  | .releaseY => { j with y := .neutral }
  | .releaseXY => { j with x := .neutral, y := .neutral }
  | .pressFire => { j with fire := true }
  | .releaseFire => { j with fire := false }
  | .pressLeft | .pressRight | .releaseLeft | .releaseRight => j

/-- The joystick after some actions. -/
def applyAll (j : Joystick) (actions : List Action) : Joystick := actions.foldl apply j

/-- What a component shows. -/
def part (j : Joystick) : Component → Axis.State ⊕ Bool
  | .axis .x => .inl j.x
  | .axis .y => .inl j.y
  | .fire => .inr j.fire

variable {j k : Joystick} {c : Component} {a : Action} {actions others : List Action}

/-! ### Actions one after the other -/

theorem applyAll_append (j : Joystick) (first later : List Action) :
    j.applyAll (first ++ later) = (j.applyAll first).applyAll later :=
  List.foldl_append

/-- A joystick is given by what its components show. -/
theorem ext_part (h : ∀ c, j.part c = k.part c) : j = k := by
  have hx : j.x = k.x := Sum.inl.inj (h (.axis .x))
  have hy : j.y = k.y := Sum.inl.inj (h (.axis .y))
  have hfire : j.fire = k.fire := Sum.inr.inj (h .fire)
  cases j
  cases k
  simp_all

/-- An action sets its components whatever they showed before. -/
theorem part_apply_of_mem (h : c ∈ a.components) (j k : Joystick) :
    (j.apply a).part c = (k.apply a).part c := by
  rcases c with (_ | _) | _ <;> cases a <;> first | rfl | simp [Action.components] at h

theorem part_apply_of_not_mem (h : c ∉ a.components) (j : Joystick) :
    (j.apply a).part c = j.part c := by
  rcases c with (_ | _) | _ <;> cases a <;> first | rfl | simp [Action.components] at h

theorem part_applyAll_of_not_mem (h : c ∉ actions.flatMap Action.components) (j : Joystick) :
    (j.applyAll actions).part c = j.part c := by
  induction actions generalizing j with
  | nil => rfl
  | cons a rest ih =>
    rw [List.flatMap_cons, List.mem_append, not_or] at h
    exact (ih h.2 (j.apply a)).trans (part_apply_of_not_mem h.1 j)

/-- Actions that set a component, the last of them for good, leave nothing of what was there. -/
theorem part_applyAll_of_mem (h : c ∈ actions.flatMap Action.components) (j k : Joystick) :
    (j.applyAll actions).part c = (k.applyAll actions).part c := by
  induction actions generalizing j k with
  | nil => cases h
  | cons a rest ih =>
    change ((j.apply a).applyAll rest).part c = ((k.apply a).applyAll rest).part c
    by_cases hrest : c ∈ rest.flatMap Action.components
    · exact ih hrest (j.apply a) (k.apply a)
    · have hfirst : c ∈ a.components := by
        rw [List.flatMap_cons, List.mem_append] at h
        exact h.resolve_right hrest
      rw [part_applyAll_of_not_mem hrest, part_applyAll_of_not_mem hrest]
      exact part_apply_of_mem hfirst j k

/-- To apply the same actions again changes nothing. -/
theorem applyAll_self (j : Joystick) (actions : List Action) :
    (j.applyAll actions).applyAll actions = j.applyAll actions := by
  refine ext_part fun c => ?_
  by_cases hc : c ∈ actions.flatMap Action.components
  · exact part_applyAll_of_mem hc (j.applyAll actions) j
  · exact part_applyAll_of_not_mem hc (j.applyAll actions)

/-- Actions on different components may change places. -/
theorem applyAll_comm
    (h : ∀ c ∈ actions.flatMap Action.components, c ∉ others.flatMap Action.components)
    (j : Joystick) :
    (j.applyAll actions).applyAll others = (j.applyAll others).applyAll actions := by
  refine ext_part fun c => ?_
  by_cases hc : c ∈ actions.flatMap Action.components
  · rw [part_applyAll_of_not_mem (h c hc)]
    exact part_applyAll_of_mem hc j (j.applyAll others)
  · rw [part_applyAll_of_not_mem hc]
    by_cases hother : c ∈ others.flatMap Action.components
    · exact part_applyAll_of_mem hother (j.applyAll actions) j
    · rw [part_applyAll_of_not_mem hother, part_applyAll_of_not_mem hother,
        part_applyAll_of_not_mem hc]

end Joystick

/-! ### Readings -/

namespace Scheme

variable {rule : Axis.Rule} {s : Scheme} {readings front : List Reading}

/-- The actions of some readings, one reading after the other. -/
def translations (rule : Axis.Rule) (s : Scheme) (readings : List Reading) : List Action :=
  readings.flatMap fun r => (s.translate rule r).getD []

/-- The components that a reading acts on. -/
def touched (rule : Axis.Rule) (s : Scheme) (r : Reading) : List Component :=
  ((s.translate rule r).getD []).flatMap Action.components

/-- Readings that act on one component come from one element. -/
def Unshared (rule : Axis.Rule) (s : Scheme) (readings : List Reading) : Prop :=
  ∀ r ∈ readings, ∀ r' ∈ readings, ∀ c ∈ s.touched rule r, c ∈ s.touched rule r' →
    r.element = r'.element

instance (rule : Axis.Rule) (s : Scheme) (readings : List Reading) :
    Decidable (s.Unshared rule readings) :=
  inferInstanceAs (Decidable (∀ r ∈ readings, ∀ r' ∈ readings, ∀ c ∈ s.touched rule r,
    c ∈ s.touched rule r' → r.element = r'.element))

theorem Unshared.of_prefix (h : s.Unshared rule readings) (hfront : front <+: readings) :
    s.Unshared rule front :=
  fun r hr r' hr' => h r (hfront.subset hr) r' (hfront.subset hr')

end Scheme

namespace ReadingDecoder

variable {rule : Axis.Rule} {d : ReadingDecoder} {j : Joystick} {seen readings : List Reading}
  {r : Reading}

/-- The actions that a decoder lets through, in order. -/
def sent (rule : Axis.Rule) : ReadingDecoder → List Reading → List Action
  | _, [] => []
  | d, r :: rest => (d.decode rule r).2.getD [] ++ sent rule (d.decode rule r).1 rest

/-- The joystick shows all that stands in the table of the decoder: no entry would change it. The
entries come from readings that were seen. -/
def Reflects (rule : Axis.Rule) (seen : List Reading) (d : ReadingDecoder) (j : Joystick) : Prop :=
  ∀ e actions, d.history.get? e = some actions → j.applyAll actions = j ∧
    ∃ r ∈ seen, r.element = e ∧ d.scheme.translate rule r = some actions

theorem reflects_new (rule : Axis.Rule) (s : Scheme) (j : Joystick) :
    Reflects rule [] { scheme := s } j := by
  intro e actions h
  cases h

theorem scheme_decode (rule : Axis.Rule) (d : ReadingDecoder) (r : Reading) :
    (d.decode rule r).1.scheme = d.scheme :=
  scheme_perform rule d (.decode r)

theorem Reflects.see (h : Reflects rule seen d j) (r : Reading) :
    Reflects rule (seen ++ [r]) d j := by
  intro e actions he
  obtain ⟨hshown, r', hr', hsource⟩ := h e actions he
  exact ⟨hshown, r', List.mem_append_left _ hr', hsource⟩

/-- A reading does the same to the joystick whether or not it is let through, and the joystick
reflects the table again. -/
theorem Reflects.decode (h : Reflects rule seen d j)
    (hunshared : d.scheme.Unshared rule (seen ++ [r])) :
    j.applyAll ((d.decode rule r).2.getD []) = j.applyAll ((d.scheme.translate rule r).getD []) ∧
      Reflects rule (seen ++ [r]) (d.decode rule r).1
        (j.applyAll ((d.scheme.translate rule r).getD [])) := by
  cases htranslate : d.scheme.translate rule r with
  | none =>
    simp only [ReadingDecoder.decode, htranslate]
    exact ⟨trivial, h.see r⟩
  | some actions =>
    by_cases hold : d.history.get? r.element = some actions
    · -- the joystick shows these actions already
      have hshown := (h r.element actions hold).1
      simp only [ReadingDecoder.decode, htranslate, if_pos hold, Option.getD_some, Option.getD_none]
      rw [hshown]
      exact ⟨rfl, h.see r⟩
    · simp only [ReadingDecoder.decode, htranslate, if_neg hold, Option.getD_some]
      refine ⟨trivial, fun e others he => ?_⟩
      rw [Table.get?_insert] at he
      split at he
      next hsame =>
        obtain rfl := Option.some.inj he
        exact ⟨j.applyAll_self actions, r, by simp,
          (Std.LawfulEqCmp.eq_of_compare hsame).symm, htranslate⟩
      next hother =>
        -- another element acts on other components, and what it has set there stays
        obtain ⟨hshown, r', hr', rfl, hsource⟩ := h e others he
        have hapart : ∀ c ∈ actions.flatMap Action.components,
            c ∉ others.flatMap Action.components := by
          intro c hc hc'
          have hsame := hunshared r (by simp) r' (List.mem_append_left _ hr') c
            (by simpa [Scheme.touched, htranslate] using hc)
            (by simpa [Scheme.touched, hsource] using hc')
          exact hother (by rw [hsame]; exact Std.ReflCmp.compare_self)
        refine ⟨?_, r', List.mem_append_left _ hr', rfl, hsource⟩
        rw [Joystick.applyAll_comm hapart, hshown]

/-- What a decoder leaves out would not have changed the joystick. -/
theorem Reflects.applyAll_sent (h : Reflects rule seen d j)
    (hunshared : d.scheme.Unshared rule (seen ++ readings)) :
    j.applyAll (sent rule d readings) = j.applyAll (d.scheme.translations rule readings) := by
  induction readings generalizing seen d j with
  | nil => rfl
  | cons r rest ih =>
    have hfront : seen ++ [r] <+: seen ++ r :: rest := ⟨rest, by simp⟩
    obtain ⟨hfirst, hreflects⟩ := h.decode (hunshared.of_prefix hfront)
    have hrest : (d.decode rule r).1.scheme.Unshared rule (seen ++ [r] ++ rest) := by
      rw [scheme_decode, List.append_assoc]
      exact hunshared
    have hlater := ih hreflects hrest
    rw [scheme_decode] at hlater
    rw [sent, Joystick.applyAll_append, hfirst, hlater, ← Joystick.applyAll_append]
    rfl

/-- **Repetitions change nothing.** Under every scheme, take any readings of which those that act on
one component come from one element. After each of them a joystick that gets only what a fresh
decoder lets through is where it would be if it got the actions of all readings. -/
theorem repetitions_change_nothing (rule : Axis.Rule) (s : Scheme) (readings : List Reading)
    (h : s.Unshared rule readings) (j : Joystick) (front : List Reading)
    (hfront : front <+: readings) :
    j.applyAll (sent rule { scheme := s } front) = j.applyAll (s.translations rule front) :=
  (reflects_new rule s j).applyAll_sent (h.of_prefix hfront)

/-- A hat and a fire button, both reported twice in a row. -/
theorem hat_and_fire_are_unshared :
    let readings : List Reading :=
      [.hat 1, .hat 1, .button 3 true, .hat 8, .button 3 true, .hat 8, .button 3 false]
    Scheme.Unshared Axis.classify {} readings ∧
      sent Axis.classify {} readings =
        [.pullUp, .pullRight, .pressFire, .releaseXY, .releaseFire] ∧
      Joystick.applyAll {} (sent Axis.classify {} readings) =
        Joystick.applyAll {} (Scheme.translations Axis.classify {} readings) := by
  intro readings
  have hunshared : Scheme.Unshared Axis.classify {} readings := by decide
  exact ⟨hunshared, by decide,
    repetitions_change_nothing Axis.classify {} readings hunshared {} readings List.prefix_rfl⟩

/-- Two fire buttons act on one component: the first is still down when the second is let go, and
its repetition, which would press fire again, is left out. -/
example :
    let readings : List Reading :=
      [.button 1 true, .button 2 true, .button 2 false, .button 1 true]
    (Joystick.applyAll {} (sent Axis.classify {} readings)).fire = false ∧
      (Joystick.applyAll {} (Scheme.translations Axis.classify {} readings)).fire = true := by
  decide

end ReadingDecoder

end PadRouter

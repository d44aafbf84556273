import PadRouter.Proofs.Element.Joystick
import PadRouter.Proofs.Key.Latches

/-!
# What an element acts on

Under a scheme every element has one use. Whatever it reports, its actions set the same components
of the emulated joystick, each of them once; so what one value pulls another one lets go.

* `Role.components` — the components that an element in a role acts on.
* `Role.actions?_cases` — one action about one component, unless it is a hat switch.
* `Scheme.perm_translate` — every report that means something sets these, each once.
* `Scheme.AtRest` — a button that is up, an angle that is none, an axis that is judged neutral.
* `Scheme.Engages` — what the values of an element can pull or press.
* `Scheme.each_element_lets_go` — a report at rest releases exactly what the element can pull or
  press.
-/

namespace PadRouter

/-! ### Roles -/

/-- The axis of the emulated stick that an analog axis moves. -/
def Direction.axis : Direction → StickAxis
  | horizontal => .x
  | vertical | verticalReversed => .y

/-- The components that an element in a role acts on. -/
def Role.components : Role → List Component
  | stick d => [.axis d.axis]
  | pull p => [.axis p.axis]
  | fire => [.fire]
  | hat => [.axis .x, .axis .y]
  | unmapped | foreign => []

/-- No position of the hat switch has this number. -/
def Hat.Outside (hat : Hat) (raw : Int) : Prop :=
  raw - (if hat = .h0h7 then 0 else 1) < 0 ∨ 7 < raw - (if hat = .h0h7 then 0 else 1)

/-- A reading that lets go of all that an element in a role can hold. -/
def Role.Rests (rule : Axis.Rule) (hat : Hat) (r : Reading) : Role → Prop
  | stick _ => rule r.value r.min r.max = some .neutral
  | pull _ | fire => r.value = 0
  | .hat => hat.Outside r.value
  | unmapped | foreign => True

variable {rule : Axis.Rule} {hat : Hat} {role : Role} {s : Scheme} {e : Element} {r : Reading}
  {actions : List Action} {a : Action} {c : Component}

theorem Direction.components_action (d : Direction) (state : Axis.State) :
    (d.action state).components = [.axis d.axis] := by
  cases d <;> cases state <;> rfl

theorem Pull.components_press (p : Pull) : p.press.components = [.axis p.axis] := by
  cases p <;> rfl

theorem Pull.components_release (p : Pull) : p.release.components = [.axis p.axis] := by
  cases p <;> rfl

/-- Every position of a hat switch sets both axes, with one action for each or one for both. -/
theorem Hat.perm_actions (hat : Hat) (raw : Int) :
    ((hat.actions raw).flatMap Action.components).Perm [.axis .x, .axis .y] := by
  unfold actions
  split <;> decide

theorem Hat.components_ne_nil {raw : Int} (h : a ∈ hat.actions raw) : a.components ≠ [] := by
  have hall : ∀ b ∈ hat.actions raw, b.components ≠ [] := by
    unfold actions
    split <;> decide
  exact hall a h

theorem Hat.actions_of_outside {raw : Int} (h : hat.Outside raw) :
    hat.actions raw = [.releaseXY] := by
  unfold Outside at h
  unfold actions
  split <;> first | omega | rfl

namespace Role

theorem nodup_components (role : Role) : role.components.Nodup := by
  cases role <;> simp [components]

/-- An element sends one action about one component, unless it is a hat switch. -/
theorem actions?_cases (h : role.actions? rule hat r = some actions) :
    (∃ a c, actions = [a] ∧ a.components = [c] ∧ role.components = [c]) ∨
      role = .hat ∧ actions = hat.actions r.value := by
  cases role with
  | stick d =>
    obtain ⟨state, -, rfl⟩ := Option.map_eq_some_iff.mp h
    exact .inl ⟨_, _, rfl, d.components_action state, rfl⟩
  | pull p =>
    refine .inl ⟨_, _, (Option.some.inj h).symm, ?_, rfl⟩
    split_ifs
    · exact p.components_release
    · exact p.components_press
  | fire =>
    refine .inl ⟨_, _, (Option.some.inj h).symm, ?_, rfl⟩
    split_ifs <;> rfl
  | hat => exact .inr ⟨rfl, (Option.some.inj h).symm⟩
  | unmapped => cases h
  | foreign => cases h

/-- What an element in a role sends sets the components of the role, each once. -/
theorem perm_actions? (h : role.actions? rule hat r = some actions) :
    (actions.flatMap Action.components).Perm role.components := by
  rcases actions?_cases h with ⟨a, c, rfl, ha, hrole⟩ | ⟨rfl, rfl⟩
  · simp [ha, hrole]
  · exact hat.perm_actions r.value

/-- No action that an element sends leaves the joystick alone. -/
theorem components_ne_nil (h : role.actions? rule hat r = some actions) (ha : a ∈ actions) :
    a.components ≠ [] := by
  rcases actions?_cases h with ⟨b, c, rfl, hb, -⟩ | ⟨-, rfl⟩
  · rw [List.mem_singleton.mp ha, hb]
    exact List.cons_ne_nil c []
  · exact hat.components_ne_nil ha

/-- At rest an element that acts on something sends releases, and nothing else. -/
theorem exists_release (h : role.Rests rule hat r) (hc : c ∈ role.components) :
    ∃ actions, role.actions? rule hat r = some actions ∧ ∀ a ∈ actions, a.isRelease = true := by
  cases role with
  | stick d =>
    have hneutral : rule r.value r.min r.max = some .neutral := h
    refine ⟨[d.action .neutral], ?_, ?_⟩
    · rw [actions?, hneutral]
      rfl
    · cases d <;> decide
  | pull p =>
    have hup : r.value = 0 := h
    refine ⟨[p.release], ?_, ?_⟩
    · rw [actions?, if_pos hup]
    · cases p <;> decide
  | fire =>
    have hup : r.value = 0 := h
    exact ⟨[.releaseFire], by rw [actions?, if_pos hup], by decide⟩
  | hat => exact ⟨[.releaseXY], by rw [actions?, hat.actions_of_outside h], by decide⟩
  | unmapped => cases hc
  | foreign => cases hc

end Role

/-! ### Where the roles are found -/

/-- The analog axes on the Generic Desktop page. -/
def Usage.axes : List UInt16 := [x, y, z, rx, ry, rz]

/-- The elements of a directional pad on the Generic Desktop page. -/
def Usage.pads : List UInt16 := [padUp, padDown, padRight, padLeft]

/-- An element of a directional pad is no hat switch and no axis. -/
theorem Usage.not_axis_of_mem_pads {usage : UInt16} (h : usage ∈ pads) :
    usage ∉ axes ∧ usage ≠ hatSwitch := by
  simp only [pads, List.mem_cons, List.not_mem_nil, or_false] at h
  rcases h with rfl | rfl | rfl | rfl <;> decide

/-- A report that lets go, told by the page and the usage of its element: a button or an element of
a directional pad that is up, a hat switch outside of its positions, an axis judged neutral. -/
def Scheme.AtRest (rule : Axis.Rule) (s : Scheme) (r : Reading) : Prop :=
  r.element.page = Page.button ∧ r.value = 0 ∨
  r.element.page = Page.desktop ∧
    (r.element.usage ∈ Usage.pads ∧ r.value = 0 ∨
      r.element.usage = Usage.hatSwitch ∧ s.hat.Outside r.value ∨
      r.element.usage ∈ Usage.axes ∧ rule r.value r.min r.max = some .neutral)

theorem LeftStick.mem_axes {l : LeftStick} {usage : UInt16} {d : Direction}
    (h : l.direction? usage = some d) : usage ∈ Usage.axes := by
  by_contra hnot
  simp only [Usage.axes, List.mem_cons, List.not_mem_nil, or_false, not_or] at hnot
  cases l <;> simp [direction?, hnot] at h

theorem RightStick.mem_axes {right : RightStick} {usage : UInt16} {d : Direction}
    (h : right.direction? usage = some d) : usage ∈ Usage.axes := by
  by_contra hnot
  simp only [Usage.axes, List.mem_cons, List.not_mem_nil, or_false, not_or] at hnot
  cases right <;> simp [direction?, hnot] at h

theorem Hat.mem_pads {usage : UInt16} {p : Pull} (h : hat.element? usage = some p) :
    usage ∈ Usage.pads := by
  cases hat <;> simp only [element?, reduceCtorEq] at h
  obtain ⟨front, back, hlist, -⟩ := List.lookup_eq_some_iff.mp h
  have hmem : (usage, p) ∈ front ++ (usage, p) :: back := by simp
  rw [← hlist] at hmem
  exact List.mem_map_of_mem (f := Prod.fst) hmem

/-- Where the elements of a role are found. -/
def Role.Fits (e : Element) : Role → Prop
  | stick _ => e.page = Page.desktop ∧ e.usage ∈ Usage.axes
  | pull _ => e.page = Page.button ∨ e.page = Page.desktop ∧ e.usage ∈ Usage.pads
  | fire => e.page = Page.button
  | .hat => e.page = Page.desktop ∧ e.usage = Usage.hatSwitch
  | unmapped | foreign => True

namespace Scheme

theorem fits_role (s : Scheme) (e : Element) : (s.role e).Fits e := by
  unfold role
  split
  next hpage =>
    split
    · exact .inl hpage
    · exact hpage
  next =>
    split
    next hpage =>
      split
      next d hleft => exact ⟨hpage, LeftStick.mem_axes hleft⟩
      next d hleft hright => exact ⟨hpage, RightStick.mem_axes hright⟩
      next p hleft hright hhat => exact .inr ⟨hpage, Hat.mem_pads hhat⟩
      next =>
        split
        next husage => exact ⟨hpage, husage⟩
        next => trivial
    next => trivial

/-- What lets go by its page and usage lets go in its role. -/
theorem AtRest.rests (h : s.AtRest rule r) : (s.role r.element).Rests rule s.hat r := by
  have hpages : Page.button ≠ Page.desktop := by decide
  have haxes : Usage.hatSwitch ∉ Usage.axes := by decide
  have hfits := s.fits_role r.element
  -- the page and the usage leave one of the four ways to let go for each role
  generalize s.role r.element = role at hfits
  cases role with
  | stick d =>
    obtain ⟨hpage, husage⟩ := hfits
    rcases h with ⟨hbutton, -⟩ | ⟨-, ⟨hpad, -⟩ | ⟨hswitch, -⟩ | ⟨-, hneutral⟩⟩
    · exact absurd (hbutton.symm.trans hpage) hpages
    · exact absurd husage (Usage.not_axis_of_mem_pads hpad).1
    · exact absurd (hswitch ▸ husage) haxes
    · exact hneutral
  | pull p =>
    rcases h with ⟨-, hup⟩ | ⟨hpage, ⟨-, hup⟩ | hother⟩
    · exact hup
    · exact hup
    · rcases hfits with hbutton | ⟨-, hpad⟩
      · exact absurd (hbutton.symm.trans hpage) hpages
      · rcases hother with ⟨hswitch, -⟩ | ⟨haxis, -⟩
        · exact absurd hswitch (Usage.not_axis_of_mem_pads hpad).2
        · exact absurd haxis (Usage.not_axis_of_mem_pads hpad).1
  | fire =>
    have hbutton : r.element.page = Page.button := hfits
    rcases h with ⟨-, hup⟩ | ⟨hpage, -⟩
    · exact hup
    · exact absurd (hbutton.symm.trans hpage) hpages
  | hat =>
    obtain ⟨hpage, husage⟩ := hfits
    rcases h with ⟨hbutton, -⟩ | ⟨-, ⟨hpad, -⟩ | ⟨-, houtside⟩ | ⟨haxis, -⟩⟩
    · exact absurd (hbutton.symm.trans hpage) hpages
    · exact absurd husage (Usage.not_axis_of_mem_pads hpad).2
    · exact houtside
    · exact absurd (husage ▸ haxis) haxes
  | unmapped => trivial
  | foreign => trivial

/-! ### What an element can hold -/

/-- Some value of the element pulls or presses the component. -/
def Engages (rule : Axis.Rule) (s : Scheme) (e : Element) (c : Component) : Prop :=
  ∃ r actions a, r.element = e ∧ s.translate rule r = some actions ∧ a ∈ actions ∧
    a.isRelease = false ∧ c ∈ a.components

/-- Every report that means something sets the components of the element's role, each once. -/
theorem perm_translate (h : s.translate rule r = some actions) :
    (actions.flatMap Action.components).Perm (s.role r.element).components :=
  Role.perm_actions? h

theorem Engages.mem_components (h : s.Engages rule e c) : c ∈ (s.role e).components := by
  obtain ⟨r, actions, a, rfl, htranslate, ha, -, hc⟩ := h
  exact (perm_translate htranslate).subset (List.mem_flatMap.mpr ⟨a, ha, hc⟩)

/-- A hat switch can pull the stick along both axes. -/
theorem engages_of_hat (h : s.role e = .hat) (axis : StickAxis) :
    s.Engages rule e (.axis axis) := by
  have htranslate : ∀ n : Int, s.translate rule ⟨e, n, 0, 7⟩ = some (s.hat.actions n) := by
    intro n
    rw [translate, h]
    rfl
  cases axis with
  | x =>
    refine ⟨_, _, .pullRight, rfl, htranslate (if s.hat = .h0h7 then 2 else 3), ?_, rfl, by decide⟩
    cases s.hat <;> decide
  | y =>
    refine ⟨_, _, .pullUp, rfl, htranslate (if s.hat = .h0h7 then 0 else 1), ?_, rfl, by decide⟩
    cases s.hat <;> decide

/-- An element that can hold something can hold all that it acts on. -/
theorem Engages.iff_mem_components (h : s.Engages rule e c) {c' : Component} :
    s.Engages rule e c' ↔ c' ∈ (s.role e).components := by
  refine ⟨fun h' => h'.mem_components, fun hc' => ?_⟩
  have hc := h.mem_components
  have hone : ∀ only, (s.role e).components = [only] → s.Engages rule e c' := by
    intro only honly
    rw [honly, List.mem_singleton] at hc hc'
    rwa [hc', ← hc]
  cases hrole : s.role e with
  | stick d => exact hone _ (by rw [hrole]; rfl)
  | pull p => exact hone _ (by rw [hrole]; rfl)
  | fire => exact hone _ (by rw [hrole]; rfl)
  | hat =>
    rw [hrole] at hc'
    simp only [Role.components, List.mem_cons, List.not_mem_nil, or_false] at hc'
    rcases hc' with rfl | rfl
    · exact engages_of_hat hrole .x
    · exact engages_of_hat hrole .y
  | unmapped =>
    rw [hrole] at hc'
    cases hc'
  | foreign =>
    rw [hrole] at hc'
    cases hc'

/-- **Each element lets go of what it can hold.** Under every scheme and every rule for the axes,
all reports of an element that mean something set the same components of the joystick, each of them
once, so that no two actions of one report are about the same one. If any value of the element pulls
or presses anything, then a report at rest is all releases, and they are about exactly what the
element can pull or press. -/
theorem each_element_lets_go (rule : Axis.Rule) (s : Scheme) (e : Element) :
    (∃ components : List Component, components.Nodup ∧
      ∀ r actions, r.element = e → s.translate rule r = some actions →
        (actions.flatMap Action.components).Perm components ∧
          (∀ a ∈ actions, a.components ≠ []) ∧
          actions.Pairwise fun a b => a.components.Disjoint b.components) ∧
    ∀ r c, r.element = e → s.AtRest rule r → s.Engages rule e c →
      ∃ actions, s.translate rule r = some actions ∧ (∀ a ∈ actions, a.isRelease = true) ∧
        ∀ c', c' ∈ actions.flatMap Action.components ↔ s.Engages rule e c' := by
  constructor
  · refine ⟨(s.role e).components, (s.role e).nodup_components, ?_⟩
    rintro r actions rfl htranslate
    have hperm := perm_translate htranslate
    refine ⟨hperm, fun a ha => Role.components_ne_nil htranslate ha, ?_⟩
    exact (List.nodup_flatMap.mp (hperm.nodup_iff.mpr (Role.nodup_components _))).2
  · rintro r c rfl hrest hengages
    obtain ⟨actions, htranslate, hreleases⟩ :=
      Role.exists_release hrest.rests hengages.mem_components
    refine ⟨actions, htranslate, hreleases, fun c' => ?_⟩
    rw [hengages.iff_mem_components]
    exact (perm_translate htranslate).mem_iff

end Scheme

end PadRouter

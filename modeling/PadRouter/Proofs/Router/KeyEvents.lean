import PadRouter.Proofs.Router.Interleavings

/-!
# One event of a key

Whether a key drives a pad is asked three times: the binding table looks up its code, the pad says
whether there was an action, and the router goes on to the next port or stops. The three answers
come to one rule: of the pads on port 1 and port 2 that bind the code, the first or all get the
event.

* `Pad.result_onKey` — a pad takes the keys that it binds, whatever it holds.
* `Router.Reaches` — some pads do with an event what each would do alone, and nothing else happens.
* `Router.reaches_handlers` — the pads that a router picks are these.
* `Router.key_reaches_binding_pads` — which pads they are, in every state that can be reached.
-/

namespace PadRouter

/-! ### The pads that get it -/

/-- A pad takes the keys that its table binds, whatever it holds. -/
theorem Pad.result_onKey (p : Pad) (down : Bool) (maps : KeyMaps) (key : Key) :
    (p.onKey down maps key).result = (p.bound? maps key).isSome := by
  cases hbound : p.bound? maps key with
  | none => rw [onKey_of_unbound hbound]; rfl
  | some b =>
    obtain ⟨notices, hkey⟩ := onKey_of_bound hbound down
    rw [hkey]
    rfl

namespace Router

/-- The pads of a list do with an event of a key what each of them would do alone; no other pad,
nothing else in the router and no listener is touched. -/
structure Reaches (down : Bool) (r : Router) (key : Key) (pads : List Taker)
    (o : Outcome Router Bool) : Prop where
  reached : ∀ t ∈ pads, o.state.pad? t.slot = some (t.pad.onKey down r.keyMaps key).state
  others : ∀ k, (∀ t ∈ pads, t.slot ≠ k) → o.state.pad? k = r.pad? k
  rest : { o.state with pads := r.pads } = r
  calls : o.trace.calls = pads.flatMap fun t => (t.pad.onKey down r.keyMaps key).trace.calls
  deliveries : o.trace.deliveries = []

variable {r : Router} {key : Key} {t : Taker} {pads : List Taker} {down : Bool}
  {o : Outcome Router Bool}

/-- What a pad that gets the event does with it. -/
theorem onKey_of_mem_handlers (h : t ∈ r.handlers key) (down : Bool) :
    (t.pad.onKey down r.keyMaps key).state = t.pad.strike down t.action ∧
      (t.pad.onKey down r.keyMaps key).trace.calls = [t.call down] := by
  obtain ⟨-, hbound⟩ := spec_of_mem_handlers h
  obtain ⟨notices, hkey⟩ := Pad.onKey_of_bound hbound down
  rw [hkey, Pad.sendTo, port_of_taker? (mem_takers.mp (mem_of_mem_handlers h))]
  exact ⟨rfl, rfl⟩

theorem reaches_handlers (r : Router) (down : Bool) (key : Key) :
    Reaches down r key (r.handlers key) (r.onKey down key) where
  reached t ht := by rw [pad?_onKey_of_mem ht, (onKey_of_mem_handlers ht down).1]
  others k hk := pad?_onKey_of_ne hk
  rest := by
    have hrest := rest_input r (.key down key)
    rwa [perform_key] at hrest
  calls := by
    rw [(r.onKey_spec down key).calls, List.map_eq_flatMap]
    exact List.flatMap_congr fun t ht => (onKey_of_mem_handlers ht down).2.symm
  deliveries := (r.onKey_spec down key).deliveries

theorem Reaches.exists_of_changed (h : Reaches down r key pads o) {k : Nat}
    (hk : o.state.pad? k ≠ r.pad? k) : ∃ t ∈ pads, t.slot = k := by
  by_contra hnone
  push Not at hnone
  exact hk (h.others k hnone)

/-- An event that one pad has to itself changes one slot at most. -/
theorem Reaches.eq_of_changed (h : Reaches down r key (pads.take 1) o) {j k : Nat}
    (hj : o.state.pad? j ≠ r.pad? j) (hk : o.state.pad? k ≠ r.pad? k) : j = k := by
  obtain ⟨t, ht, rfl⟩ := h.exists_of_changed hj
  obtain ⟨u, hu, rfl⟩ := h.exists_of_changed hk
  cases pads with
  | nil => cases ht
  | cons first rest =>
    have hone : (first :: rest).take 1 = [first] := rfl
    rw [hone, List.mem_singleton] at ht hu
    rw [ht, hu]

/-! ### In every state -/

/-- **A key reaches the pads that bind it.** In every state that can be reached, an event of a key
goes by the code alone. Take the pads on port 1 and port 2, in this order, whose tables bind it. If
keys are kept from the emulated keyboard, the first of them has the event to itself, and it is kept
if there is one; so no event reaches two pads. Otherwise all of them get it, and it is not kept. The
pads that get it do with it what each would do alone, and nothing else changes. -/
theorem key_reaches_binding_pads (c : Config) (register : Register) (cmds : List Command)
    (down : Bool) (key : Key) :
    let r := (start c register).state.run cmds
    let event (key : Key) := if down then r.keyDown key else r.keyUp key
    let takers := r.takers key
    (∀ other : Key, other.code = key.code → event other = event key) ∧
    (∀ t, t ∈ takers ↔ r.pad? t.slot = some t.pad ∧ t.pad.port = some t.port ∧
      t.pad.bound? r.keyMaps key = some t.action) ∧
    (takers.map Taker.port).Sublist [.one, .two] ∧
    (∀ p : Pad, (p.onKey down r.keyMaps key).result = (p.bound? r.keyMaps key).isSome) ∧
    (r.disconnectKeys = true →
      Reaches down r key (takers.take 1) (event key) ∧
      ((event key).result = true ↔ takers ≠ []) ∧
      ∀ j k, (event key).state.pad? j ≠ r.pad? j → (event key).state.pad? k ≠ r.pad? k → j = k) ∧
    (r.disconnectKeys = false →
      Reaches down r key takers (event key) ∧ (event key).result = false) := by
  intro r event takers
  have hports : r.Follows (portPlan c cmds) := follows_run_start c register cmds
  have hevent : ∀ k, event k = r.onKey down k := by
    intro k
    cases down <;> rfl
  have hreaches : Reaches down r key (r.getting takers) (event key) := by
    rw [hevent]
    exact r.reaches_handlers down key
  have hresult : (event key).result = (r.disconnectKeys && !takers.isEmpty) := by
    rw [hevent]
    exact (r.onKey_spec down key).result
  refine ⟨fun other hcode => ?_, fun t => mem_takers_iff hports, r.sublist_ports key.plain Port.all,
    fun p => p.result_onKey down r.keyMaps key, fun hkept => ?_, fun hkept => ?_⟩
  · have hplain : other.plain = key.plain := congrArg (Key.mk · {}) hcode
    rw [hevent, hevent, onKey, onKey, hplain]
  · rw [getting, if_pos hkept] at hreaches
    refine ⟨hreaches, ?_, fun j k => hreaches.eq_of_changed⟩
    rw [hresult, hkept, Bool.true_and, Bool.not_eq_true', List.isEmpty_eq_false_iff]
  · rw [getting, if_neg (by simp [hkept])] at hreaches
    refine ⟨hreaches, ?_⟩
    rw [hresult, hkept, Bool.false_and]

end Router

end PadRouter

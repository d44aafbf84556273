import Mathlib.Data.List.Basic
import PadRouter.Proofs.Key.Latches
import PadRouter.Proofs.Router.Slots

/-!
# Where a key event goes

A key event is offered to the pads on the ports, port 1 first. A pad takes it if its table binds the
key, and may then have it to itself.

* `Pad.bound?`, `Pad.strike`, `Pad.onKey` — what the table of a pad makes of a key, and what an
  event of a bound key does to the pad.
* `Router.Taker`, `Router.takers`, `Router.handlers` — the pads on the ports that bind a key, and
  those of them that get the event.
* `Router.onKey_spec` — the state, the result, the calls and the deliveries of a key event are those
  of its handlers.
* `Router.pad?_onKey_of_mem`, `Router.pad?_onKey_of_ne` — the pad in a slot afterwards.
-/

namespace PadRouter

/-! ### One pad -/

namespace Pad

/-- The action that the pad's table binds to a key. -/
def bound? (p : Pad) (maps : KeyMaps) (key : Key) : Option Bindable :=
  p.keyMap.bind fun id => (maps.get id).lookup key

/-- The pad after an event of a key bound to `b`. -/
def strike (p : Pad) (down : Bool) (b : Bindable) : Pad := { p with held := (p.held.strike down b).1 }

/-- A key goes down or up. -/
def onKey : Bool → KeyMaps → Key → Pad → Outcome Pad Bool
  | true => keyDown
  | false => keyUp

variable {p : Pad} {maps : KeyMaps} {key : Key} {down : Bool} {b : Bindable}

theorem bound?_plain (p : Pad) (maps : KeyMaps) (key : Key) :
    p.bound? maps key.plain = p.bound? maps key := rfl

theorem undisturbed_onKey (down : Bool) (maps : KeyMaps) (key : Key) (p : Pad) :
    p.Undisturbed (p.onKey down maps key).state := by
  cases down
  · exact undisturbed_keyUp maps key p
  · exact undisturbed_keyDown maps key p

theorem undisturbed_strike (p : Pad) (down : Bool) (b : Bindable) : p.Undisturbed (p.strike down b) :=
  ⟨⟨rfl, rfl, rfl, fun _ => ⟨rfl, rfl⟩⟩, rfl⟩

theorem onKey_of_unbound (h : p.bound? maps key = none) :
    p.onKey down maps key = ⟨p, false, {}⟩ := by
  cases hid : p.keyMap with
  | none => cases down <;> simp [onKey, keyDown, keyUp, hid]
  | some id =>
    have hlookup : (maps.get id).lookup key = none := by simpa [bound?, hid] using h
    cases down <;>
      simp [onKey, keyDown, keyUp, hid, afterKey, HeldKeys.keyDown, HeldKeys.keyUp, hlookup]

/-- A pad that binds the key sends one action to its port. -/
theorem onKey_of_bound (h : p.bound? maps key = some b) (down : Bool) :
    ∃ notices, p.onKey down maps key =
      ⟨p.strike down b, true, ⟨p.sendTo p.kind [(p.held.strike down b).2], notices, []⟩⟩ := by
  obtain ⟨id, hid, hlookup⟩ := Option.bind_eq_some_iff.mp h
  cases down with
  | true =>
    refine ⟨[.keyDown key [(p.held.press b).2]], ?_⟩
    simp [onKey, keyDown, hid, afterKey, HeldKeys.keyDown, hlookup, strike, HeldKeys.strike]
  | false =>
    refine ⟨[.keyUp key [(p.held.release b).2]], ?_⟩
    simp [onKey, keyUp, hid, afterKey, HeldKeys.keyUp, hlookup, strike, HeldKeys.strike]

end Pad

namespace Router

/-! ### The pads on the ports -/

/-- A pad on a port whose table binds a key to an action. -/
structure Taker where
  slot : Nat
  pad : Pad
  port : Port
  action : Bindable

/-- The pad on a port, if its table binds the key. -/
def taker? (r : Router) (key : Key) (port : Port) : Option Taker :=
  (r.slotOn port).bind fun slot => (r.pad? slot).bind fun p =>
    (p.bound? r.keyMaps key).map fun b => ⟨slot, p, port, b⟩

/-- The pads on some ports whose tables bind the key. -/
def takersOn (r : Router) (key : Key) (ports : List Port) : List Taker :=
  ports.filterMap (r.taker? key)

/-- The pads that bind the key, port 1 first. Its modifiers do not count. -/
def takers (r : Router) (key : Key) : List Taker := r.takersOn key.plain Port.all

/-- Those of the pads that get the event: only the first, if keys are kept from the emulated
keyboard. -/
def getting (r : Router) (takers : List Taker) : List Taker :=
  if r.disconnectKeys then takers.take 1 else takers

/-- The pads that get an event of a key. -/
def handlers (r : Router) (key : Key) : List Taker := r.getting (r.takers key)

/-- The router after a pad has got an event of a key. -/
def struck (down : Bool) (r : Router) (t : Taker) : Router :=
  { r with pads := r.pads.insert t.slot (t.pad.strike down t.action) }

/-- The call that an event makes on the port of a pad that gets it. -/
def Taker.call (down : Bool) (t : Taker) : PortCall :=
  t.pad.kind.call t.port (t.pad.held.strike down t.action).2

/-- A key goes down or up. -/
def onKey (r : Router) (down : Bool) (key : Key) : Outcome Router Bool :=
  offerKey (Pad.onKey down) key.plain r Port.all

theorem keyDown_eq (r : Router) (key : Key) : r.keyDown key = r.onKey true key := rfl

theorem keyUp_eq (r : Router) (key : Key) : r.keyUp key = r.onKey false key := rfl

variable {r s : Router} {key : Key} {port : Port} {down : Bool} {t u : Taker} {ports : List Port}

theorem taker?_eq_some_iff :
    r.taker? key port = some t ↔ r.slotOn port = some t.slot ∧ r.pad? t.slot = some t.pad ∧
      t.port = port ∧ t.pad.bound? r.keyMaps key = some t.action := by
  simp only [taker?, Option.bind_eq_some_iff, Option.map_eq_some_iff]
  constructor
  · rintro ⟨slot, hslot, p, hp, b, hb, rfl⟩
    exact ⟨hslot, hp, rfl, hb⟩
  · rintro ⟨hslot, hp, rfl, hb⟩
    exact ⟨_, hslot, _, hp, _, hb, rfl⟩

theorem port_of_taker? (h : r.taker? key port = some t) : t.pad.port = some t.port := by
  obtain ⟨hslot, hp, rfl, -⟩ := taker?_eq_some_iff.mp h
  obtain ⟨p, hp', hport⟩ := exists_of_slotOn hslot
  rw [hp] at hp'
  rwa [Option.some.inj hp']

theorem mem_takersOn : t ∈ r.takersOn key ports ↔ t.port ∈ ports ∧ r.taker? key t.port = some t := by
  rw [takersOn, List.mem_filterMap]
  constructor
  · rintro ⟨port, hport, ht⟩
    obtain ⟨-, -, rfl, -⟩ := taker?_eq_some_iff.mp ht
    exact ⟨hport, ht⟩
  · rintro ⟨hport, ht⟩
    exact ⟨t.port, hport, ht⟩

theorem mem_takers : t ∈ r.takers key ↔ r.taker? key.plain t.port = some t := by
  rw [takers, mem_takersOn, and_iff_right]
  cases t.port <;> decide

theorem sublist_takers (r : Router) (key : Key) : (r.handlers key).Sublist (r.takers key) := by
  unfold handlers getting
  split
  · exact List.take_sublist 1 _
  · exact .refl _

theorem mem_of_mem_handlers (h : t ∈ r.handlers key) : t ∈ r.takers key :=
  (r.sublist_takers key).subset h

theorem spec_of_mem_handlers (h : t ∈ r.handlers key) :
    r.pad? t.slot = some t.pad ∧ t.pad.bound? r.keyMaps key = some t.action := by
  obtain ⟨-, hp, -, hbound⟩ := taker?_eq_some_iff.mp (mem_takers.mp (mem_of_mem_handlers h))
  rw [Pad.bound?_plain] at hbound
  exact ⟨hp, hbound⟩

/-- A pad on port 1 gets every key that it binds. -/
theorem mem_handlers_of_one (h : r.taker? key.plain .one = some t) : t ∈ r.handlers key := by
  have htakers : r.takers key = t :: r.takersOn key.plain [.two] := by
    rw [takers, takersOn, Port.all, List.filterMap_cons_some h]
    rfl
  unfold handlers getting
  rw [htakers]
  split <;> exact List.mem_cons_self

/-- Without pads on the ports nobody gets a key. -/
theorem handlers_of_unbound (h : ∀ k p, r.pad? k = some p → p.port = none) :
    r.handlers key = [] := by
  rw [List.eq_nil_iff_forall_not_mem]
  intro t ht
  have hport := port_of_taker? (mem_takers.mp (mem_of_mem_handlers ht))
  rw [h t.slot t.pad (spec_of_mem_handlers ht).1] at hport
  cases hport

theorem sublist_ports (r : Router) (key : Key) (ports : List Port) :
    ((r.takersOn key ports).map Taker.port).Sublist ports := by
  induction ports with
  | nil => exact .slnil
  | cons port rest ih =>
    rw [takersOn]
    cases ht : r.taker? key port with
    | none =>
      rw [List.filterMap_cons_none ht]
      exact ih.cons port
    | some t =>
      obtain ⟨-, -, rfl, -⟩ := taker?_eq_some_iff.mp ht
      rw [List.filterMap_cons_some ht]
      exact ih.cons_cons t.port

theorem nodup_ports (r : Router) (key : Key) : ((r.handlers key).map Taker.port).Nodup := by
  have hports : ((r.takers key).map Taker.port).Sublist Port.all := r.sublist_ports key.plain Port.all
  exact .sublist (((r.sublist_takers key).map Taker.port).trans hports) (by decide)

/-- Each port has one of the pads at most. -/
theorem filter_handlers (h : t ∈ r.handlers key) :
    (r.handlers key).filter (fun u => u.port = t.port) = [t] := by
  have hports := r.nodup_ports key
  generalize r.handlers key = l at h hports
  induction l with
  | nil => cases h
  | cons u rest ih =>
    obtain ⟨hport, hrest⟩ := List.nodup_cons.mp hports
    rcases List.mem_cons.mp h with rfl | h
    · have hnone : rest.filter (fun v => v.port = t.port) = [] := by
        rw [List.filter_eq_nil_iff]
        intro v hv hsame
        exact hport (of_decide_eq_true hsame ▸ List.mem_map_of_mem hv)
      rw [List.filter_cons_of_pos (by simp), hnone]
    · have hother : u.port ≠ t.port := fun hsame => hport (hsame ▸ List.mem_map_of_mem h)
      rw [List.filter_cons_of_neg (by simpa using hother)]
      exact ih h hrest

theorem undisturbed_struck (h : r.pad? t.slot = some t.pad) (down : Bool) :
    r.Undisturbed (struck down r t) where
  slotLimit := rfl
  reservations := rfl
  pads := by
    intro k
    rw [struck, pad?_insert]
    split
    next hk =>
      rw [hk, h]
      exact .some (t.pad.undisturbed_strike down t.action)
    next =>
      cases r.pad? k with
      | some p => exact .some (.refl p)
      | none => exact .none

/-- A pad that gets the event changes nothing for the pads on other ports. -/
theorem taker?_struck {other : Port} (h : r.taker? key port = some t) (hother : other ≠ port) :
    (struck down r t).taker? key other = r.taker? key other := by
  obtain ⟨hslot, hp, -, -⟩ := taker?_eq_some_iff.mp h
  have hsame := (undisturbed_struck hp down).slotOn_eq other
  unfold taker?
  rw [hsame]
  cases hon : r.slotOn other with
  | none => rfl
  | some slot =>
    -- the pad on the other port is another one, as a pad is bound to one port at most
    have hne : slot ≠ t.slot := by
      rintro rfl
      obtain ⟨p, hp', hport⟩ := exists_of_slotOn hslot
      obtain ⟨q, hq, hport'⟩ := exists_of_slotOn hon
      rw [hp'] at hq
      rw [← Option.some.inj hq, hport] at hport'
      exact hother (Option.some.inj hport').symm
    rw [Option.bind_some, Option.bind_some, struck, pad?_insert, if_neg hne]

/-- A pad on a port that does not bind the key is passed over. -/
theorem offerKey_of_none (h : r.taker? key port = none) :
    offerKey (Pad.onKey down) key r (port :: ports) = offerKey (Pad.onKey down) key r ports := by
  unfold taker? at h
  rw [offerKey]
  cases hslot : r.slotOn port with
  | none => rfl
  | some slot =>
    obtain ⟨p, hp, -⟩ := exists_of_slotOn hslot
    have hunbound : p.bound? r.keyMaps key = none := by simpa [hslot, hp] using h
    have hsame : ({ r with pads := r.pads.insert slot p } : Router) = r := by
      have hpads : r.pads.insert slot p = r.pads := by
        refine Table.ext_get? fun k => ?_
        simp only [Table.get?_insert, Nat.compare_eq_eq]
        split
        next hk =>
          rw [hk]
          exact hp.symm
        next => rfl
      rw [hpads]
    simp only [onPad, hp, Pad.onKey_of_unbound hunbound, Outcome.mapState, Outcome.andThen,
      Bool.false_and, Bool.false_eq_true, if_false, hsame]
    rfl

/-- A pad on a port that binds the key gets the event, and the others are asked only if it does not
have it to itself. -/
theorem offerKey_of_some (h : r.taker? key port = some t) (down : Bool) (ports : List Port) :
    ∃ notices, offerKey (Pad.onKey down) key r (port :: ports) =
      (if r.disconnectKeys then (⟨struck down r t, true, {}⟩ : Outcome Router Bool)
        else offerKey (Pad.onKey down) key (struck down r t) ports).after
          ⟨[t.call down], notices, []⟩ := by
  obtain ⟨hslot, hp, hport, hbound⟩ := taker?_eq_some_iff.mp h
  obtain ⟨notices, hkey⟩ := Pad.onKey_of_bound hbound down
  have hcalls : t.pad.sendTo t.pad.kind [(t.pad.held.strike down t.action).2] = [t.call down] := by
    rw [Pad.sendTo, port_of_taker? h]
    rfl
  have hasked : r.onPad t.slot false (Pad.onKey down r.keyMaps key) =
      ⟨struck down r t, true, ⟨[t.call down], notices, []⟩⟩ := by
    simp only [onPad, hp, hkey, hcalls, Outcome.mapState]
    rfl
  refine ⟨notices, ?_⟩
  rw [offerKey, hslot]
  simp only [hasked, Outcome.andThen, Bool.true_and]
  rfl

/-- What a key event leaves behind, said by the pads that get it. -/
structure Settled (down : Bool) (r : Router) (takers : List Taker) (o : Outcome Router Bool) :
    Prop where
  state : o.state = (r.getting takers).foldl (struck down) r
  result : o.result = (r.disconnectKeys && !takers.isEmpty)
  calls : o.trace.calls = (r.getting takers).map (Taker.call down)
  deliveries : o.trace.deliveries = []

theorem settled_offerKey (hports : ports.Nodup) :
    Settled down r (r.takersOn key ports) (offerKey (Pad.onKey down) key r ports) := by
  induction ports generalizing r with
  | nil =>
    cases hkept : r.disconnectKeys <;>
      exact ⟨by simp [takersOn, getting, offerKey, hkept], by simp [takersOn, offerKey],
        by simp [takersOn, getting, offerKey, hkept], rfl⟩
  | cons port rest ih =>
    obtain ⟨hport, hrest⟩ := List.nodup_cons.mp hports
    cases ht : r.taker? key port with
    | none =>
      rw [offerKey_of_none ht, takersOn, List.filterMap_cons_none ht]
      exact ih hrest
    | some t =>
      obtain ⟨notices, hoffer⟩ := offerKey_of_some ht down rest
      rw [hoffer, takersOn, List.filterMap_cons_some ht]
      have hothers : rest.filterMap (r.taker? key) = (struck down r t).takersOn key rest := by
        refine List.filterMap_congr fun other hother => (taker?_struck ht ?_).symm
        rintro rfl
        exact hport hother
      rw [hothers]
      have hlater := ih (r := struck down r t) hrest
      have hkeeps : (struck down r t).disconnectKeys = r.disconnectKeys := rfl
      cases hkept : r.disconnectKeys with
      | true =>
        exact ⟨by simp [getting, hkept, Outcome.after], by simp [hkept, Outcome.after],
          by simp [getting, hkept, Outcome.after], rfl⟩
      | false =>
        obtain ⟨hstate, hresult, hcalls, hdeliveries⟩ := hlater
        simp only [getting, hkeeps, hkept, Bool.false_eq_true, if_false] at hstate hcalls
        refine ⟨?_, ?_, ?_, ?_⟩
        · simpa [getting, hkept, Outcome.after] using hstate
        · simpa [hkeeps, hkept, Outcome.after] using hresult
        · simpa [getting, hkept, Outcome.after] using hcalls
        · simpa [Outcome.after] using hdeliveries

theorem onKey_spec (r : Router) (down : Bool) (key : Key) :
    Settled down r (r.takers key) (r.onKey down key) :=
  settled_offerKey (by decide)

theorem undisturbed_onKey (r : Router) (down : Bool) (key : Key) :
    r.Undisturbed (r.onKey down key).state :=
  undisturbed_offerKey (Pad.undisturbed_onKey down) _ _ r

/-! ### The slots afterwards -/

/-- No two of the pads that bind a key sit in one slot. -/
theorem eq_of_slot_eq (ht : t ∈ r.takers key) (hu : u ∈ r.takers key) (h : t.slot = u.slot) :
    t = u := by
  rw [mem_takers] at ht hu
  have hport : t.port = u.port := by
    have hpt := port_of_taker? ht
    have hpu := port_of_taker? hu
    have hpad : t.pad = u.pad := by
      have hp := (taker?_eq_some_iff.mp ht).2.1
      rw [h, (taker?_eq_some_iff.mp hu).2.1] at hp
      exact (Option.some.inj hp).symm
    rw [hpad, hpu] at hpt
    exact (Option.some.inj hpt).symm
  rw [hport, hu] at ht
  exact (Option.some.inj ht).symm

theorem pad?_foldl_struck_of_ne {k : Nat} {l : List Taker} (h : ∀ t ∈ l, t.slot ≠ k) :
    (l.foldl (struck down) r).pad? k = r.pad? k := by
  induction l generalizing r with
  | nil => rfl
  | cons t rest ih =>
    have hk : k ≠ t.slot := (h t List.mem_cons_self).symm
    rw [List.foldl_cons, ih fun u hu => h u (List.mem_cons_of_mem _ hu), struck, pad?_insert,
      if_neg hk]

theorem pad?_foldl_struck_of_mem {l : List Taker} (h : t ∈ l)
    (hl : ∀ u ∈ l, u.slot = t.slot → u = t) :
    (l.foldl (struck down) r).pad? t.slot = some (t.pad.strike down t.action) := by
  induction l generalizing r with
  | nil => cases h
  | cons u rest ih =>
    rw [List.foldl_cons]
    by_cases hrest : t ∈ rest
    · exact ih hrest fun v hv => hl v (List.mem_cons_of_mem _ hv)
    · obtain rfl : t = u := (List.mem_cons.mp h).resolve_right hrest
      have hothers : ∀ v ∈ rest, v.slot ≠ t.slot := by
        intro v hv hslot
        have := hl v (List.mem_cons_of_mem _ hv) hslot
        exact hrest (this ▸ hv)
      rw [pad?_foldl_struck_of_ne hothers, struck, pad?_insert, if_pos rfl]

/-- The pads that get the event hear it, and no others. -/
theorem pad?_onKey_of_mem (h : t ∈ r.handlers key) :
    (r.onKey down key).state.pad? t.slot = some (t.pad.strike down t.action) := by
  rw [(onKey_spec r down key).state]
  refine pad?_foldl_struck_of_mem h fun u hu hslot => ?_
  exact eq_of_slot_eq (mem_of_mem_handlers hu) (mem_of_mem_handlers h) hslot

theorem pad?_onKey_of_ne {k : Nat} (h : ∀ t ∈ r.handlers key, t.slot ≠ k) :
    (r.onKey down key).state.pad? k = r.pad? k := by
  rw [(onKey_spec r down key).state]
  exact pad?_foldl_struck_of_ne h

end Router

end PadRouter

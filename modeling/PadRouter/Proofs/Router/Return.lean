import PadRouter.Proofs.Router.Arrival
import PadRouter.Proofs.Router.Seats

/-!
# Devices that leave and come back

A removal drops a pad and leaves the reservations alone, an arrival goes through both; the two are
not written as inverses, and yet undo each other.

* `Router.remove_of_unknown` — a device that is not there cannot leave.
* `Router.remove_insert_newcomer` — the pad of a device that has just come is all that goes with it.
* `Router.WellSeated.admits_of_removed` — the slot that a device leaves is the next one to be given
  away, if no slot below it is free.
* `Router.return_restores` — a device that comes and goes leaves nothing behind, and one that comes
  after another has gone gets its slot and its port.
-/

namespace PadRouter.Router

variable {r : Router} {limit slot k : Nat} {p : Pad} {location : String} {device : Device}
  {plan : PortPlan}

/-! ### Coming and going -/

/-- A pad stays, unless its device is the one that leaves. -/
theorem pad?_remove_of_other (h : ∀ p, r.pad? k = some p → p.location? ≠ some location) :
    (r.remove location).state.pad? k = r.pad? k := by
  rw [pad?_remove]
  cases hp : r.pad? k with
  | none => rfl
  | some p => rw [Option.filter_some, if_pos (by simpa using h p hp)]

/-- A device that is not there cannot leave. -/
theorem remove_of_unknown (h : r.slotOf? location = none) : (r.remove location).state = r :=
  eq_of_pad? rfl fun k => pad?_remove_of_other (slotOf?_eq_none_iff.mp h k)

/-- The pad of a device that has just come is all that goes with it. -/
theorem remove_insert_newcomer (hunknown : r.slotOf? device.locationId = none)
    (hfree : r.pad? slot = none) :
    (remove { r with pads := r.pads.insert slot (r.newcomer slot device) }
      device.locationId).state = r := by
  refine eq_of_pad? rfl fun k => ?_
  rw [pad?_remove, pad?_insert]
  by_cases hk : k = slot
  · have hgone : ((r.newcomer slot device).location? != some device.locationId) = false :=
      bne_self_eq_false _
    rw [if_pos hk, Option.filter_some, hgone, hk, hfree]
    rfl
  · rw [if_neg hk, ← pad?_remove, remove_of_unknown hunknown]

theorem Follows.remove_arrive (h : r.Follows plan)
    (hunknown : r.slotOf? device.locationId = none) :
    ((r.arrive device).state.remove device.locationId).state = r := by
  rcases r.arrive_cases device with ⟨slot, hadmits, hstate, -⟩ | ⟨-, hstate, -⟩
  · rw [hstate, h.seat_eq]
    exact remove_insert_newcomer hunknown (pad?_of_freeSlot? hadmits.free)
  · rw [hstate, remove_of_unknown hunknown]

/-- The slot that a device has got is the one that becomes free when it goes. -/
theorem WellSeated.slotOf?_arrive (h : (r.arrive device).state.WellSeated limit)
    (hunknown : r.slotOf? device.locationId = none) :
    (r.arrive device).state.slotOf? device.locationId = (r.arrive device).result := by
  cases hresult : (r.arrive device).result with
  | none => rw [state_arrive_of_none hresult, hunknown]
  | some slot =>
    obtain ⟨p, hp, hdevice⟩ := exists_pad_of_arrive hresult
    exact h.slotOf?_eq_some_iff.mpr ⟨p, hp, by rw [Pad.location?, hdevice]; rfl⟩

/-! ### Going and coming -/

/-- The pads of other devices stay where they are. -/
theorem WellSeated.pad?_remove_of_ne (h : r.WellSeated limit) (hp : r.pad? slot = some p)
    (hloc : p.location? = some location) (hk : k ≠ slot) :
    (r.remove location).state.pad? k = r.pad? k :=
  pad?_remove_of_other fun q hq hsame => hk (h.unique k slot q p location hq hp hsame hloc)

/-- Devices sit below the limit. -/
theorem WellSeated.lt_slotLimit (h : r.WellSeated limit) (hp : r.pad? slot = some p)
    (hloc : p.location? = some location) : slot < r.slotLimit := by
  cases hbuiltin : builtinPads.get? slot with
  | some b =>
    obtain ⟨q, hq, hsame⟩ := h.builtin slot b hbuiltin
    obtain rfl : q = p := Option.some.inj (hq.symm.trans hp)
    rw [hsame.location?, Pad.location?, device_builtin hbuiltin] at hloc
    cases hloc
  | none =>
    rw [h.slotLimit]
    exact (h.device slot p hp hbuiltin).1

/-- The slot that a device leaves is the next one to be given away, if no slot below it is free. -/
theorem WellSeated.admits_of_removed (h : r.WellSeated limit) (hp : r.pad? slot = some p)
    (hloc : p.location? = some location)
    (hlowest : ∀ k < r.slotLimit, r.pad? k = none → slot < k)
    (hexternal : device.isInternal = false)
    (hunknown : (r.remove location).state.slotOf? device.locationId = none) :
    (r.remove location).state.Admits device slot where
  external := hexternal
  unknown := hunknown
  free := by
    have hlt := h.lt_slotLimit hp hloc
    refine freeSlot?_eq_some_iff.mpr ⟨hlt, ?_, fun k hk => isUsed_iff.mpr ?_⟩
    · rw [pad?_remove, hp, Option.filter_some, hloc]
      simp
    · -- a free slot below would be lower than the one that is left
      rw [h.pad?_remove_of_ne hp hloc (by omega)]
      refine Option.ne_none_iff_exists'.mp fun hnone => ?_
      have hless := hlowest k (by omega) hnone
      omega

theorem Follows.port_newcomer (h : r.Follows plan) (hp : r.pad? slot = some p) :
    (r.newcomer slot device).port = p.port := by
  refine Option.ext fun port => ?_
  rw [h.serves slot p hp port, ← h.reserved]
  exact h.portOf?_eq_some_iff

/-- **A return restores what was there.** In every state that can be reached, a device whose
location is unknown may come and go, and whether or not it was let in, the router is what it was
before. And a device may go from a slot below all free ones: then the next external device, at a
location that is unknown by then, gets its slot and its port, and nothing else has changed. -/
theorem return_restores (c : Config) (register : Register) (cmds : List Command) :
    let r := (start c register).state.run cmds
    (∀ device, r.slotOf? device.locationId = none →
      let visited := (r.arrive device).state.remove device.locationId
      visited.state = r ∧ visited.result = (r.arrive device).result.toList) ∧
    ∀ slot p location, r.pad? slot = some p → p.location? = some location →
      (∀ k < r.slotLimit, r.pad? k = none → slot < k) →
      ∀ device, device.isInternal = false →
        (r.remove location).state.slotOf? device.locationId = none →
        let back := (r.remove location).state.arrive device
        back.result = some slot ∧
          back.state = { r with pads := r.pads.insert slot (r.newcomer slot device) } ∧
          (r.newcomer slot device).port = p.port ∧
          ∀ k, k ≠ slot → back.state.pad? k = r.pad? k := by
  intro r
  have hseats : r.WellSeated (max c.slotLimit.toNat builtinSlots) :=
    wellSeated_run (wellSeated_start c register) cmds
  have hports : r.Follows (portPlan c cmds) := follows_run_start c register cmds
  constructor
  · intro device hunknown visited
    refine ⟨hports.remove_arrive hunknown, ?_⟩
    have hlater : (r.arrive device).state.WellSeated (max c.slotLimit.toNat builtinSlots) :=
      wellSeated_perform hseats (.arrive device)
    rw [← hlater.slotOf?_arrive hunknown]
    exact hlater.result_remove device.locationId
  · intro slot p location hp hloc hlowest device hexternal hunknown back
    have hadmits := hseats.admits_of_removed hp hloc hlowest hexternal hunknown
    have hothers : ∀ k, k ≠ slot → (r.remove location).state.pad? k = r.pad? k :=
      fun k hk => hseats.pad?_remove_of_ne hp hloc hk
    have hstate : back.state = { r with pads := r.pads.insert slot (r.newcomer slot device) } := by
      have hseated := (hports.remove location).seat_eq slot device
      rw [state_arrive_of_admits hadmits, hseated]
      refine eq_of_pad? rfl fun k => ?_
      rw [pad?_insert, pad?_insert]
      by_cases hk : k = slot
      · rw [if_pos hk, if_pos hk]
        rfl
      · rw [if_neg hk, if_neg hk, hothers k hk]
    refine ⟨result_arrive_eq_some_iff.mpr hadmits, hstate, hports.port_newcomer hp, fun k hk => ?_⟩
    rw [hstate, pad?_insert, if_neg hk]

/-- A stick in slot 3 on port 1 goes, and another one that comes at another location takes over. -/
theorem second_stick_takes_over :
    let stick (location : String) : Device :=
      ⟨"1", "1", location, none, none, none, none, false, none, none⟩
    let r := (start {} .shipped).state.run [.arrive (stick "a"), .bindPort 3 .one]
    let back := (r.remove "a").state.arrive (stick "b")
    (∀ k < r.slotLimit, r.pad? k = none → 3 < k) ∧
      (r.remove "a").state.slotOf? "b" = none ∧ back.result = some 3 ∧
      (back.state.pad? 3).bind Pad.port = some .one := by
  intro stick r back
  obtain ⟨p, hp, hloc, hport⟩ : ∃ p, r.pad? 3 = some p ∧ p.location? = some "a" ∧
      p.port = some .one := ⟨_, rfl, rfl, rfl⟩
  have hused : ∀ k < 4, r.isUsed k = true := by decide +kernel
  have hlowest : ∀ k < r.slotLimit, r.pad? k = none → 3 < k := by
    intro k _ hfree
    by_contra hk
    obtain ⟨q, hq⟩ := isUsed_iff.mp (hused k (by omega))
    rw [hfree] at hq
    cases hq
  have hunknown : (r.remove "a").state.slotOf? "b" = none := by decide +kernel
  obtain ⟨hresult, hstate, hsame, -⟩ :=
    (return_restores {} .shipped [.arrive (stick "a"), .bindPort 3 .one]).2 3 p "a" hp hloc hlowest
      (stick "b") (by decide +kernel) hunknown
  refine ⟨hlowest, hunknown, hresult, ?_⟩
  rw [hstate, pad?_insert, if_pos rfl]
  exact hsame.trans hport

end PadRouter.Router

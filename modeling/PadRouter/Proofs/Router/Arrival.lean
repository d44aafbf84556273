import Mathlib.Data.List.Perm.Subperm
import PadRouter.Proofs.Router.Ports

/-!
# What an arrival changes

A device that is let in takes the lowest free slot, and with it the port that waits for the slot.
To bind this port again goes through all pads and through the reservations, and yet finds nothing
else to change.

* `Router.freeSlot?_eq_some_iff`, `Router.freeSlot?_eq_none_iff` — the search for a slot looks at a
  few slots only, and finds the lowest free one below the limit all the same.
* `Router.newcomer` — the pad that a device gets in a slot.
* `Router.Follows.seat_eq` — to seat a device puts this pad into its slot and does nothing else.
* `Router.arrival_takes_lowest_slot` — who is let in, where, and what stays as it is.
-/

namespace PadRouter

namespace Reservations

/-- The port that waits for a slot. -/
def portOf? (reserved : Reservations) (slot : Nat) : Option Port :=
  Port.all.find? fun port => reserved.get port == some slot

variable {reserved : Reservations} {slot : Nat} {port : Port}

theorem get_of_portOf? (h : reserved.portOf? slot = some port) : reserved.get port = some slot := by
  simpa using List.find?_some h

theorem portOf?_eq_none_iff :
    reserved.portOf? slot = none ↔ ∀ port, reserved.get port ≠ some slot := by
  rw [portOf?, List.find?_eq_none]
  constructor
  · intro h port
    have hport : port ∈ Port.all := by cases port <;> decide
    simpa using h port hport
  · intro h port _
    simpa using h port

/-- A slot that has the port already claims nothing new. -/
theorem claim_of_reserved (h : reserved.get port = some slot)
    (hother : reserved.get port.other ≠ some slot) : reserved.claim port slot = reserved := by
  rw [claim, if_neg hother]
  cases port <;> rw [set, ← h] <;> rfl

end Reservations

namespace Router

variable {r : Router} {plan : PortPlan} {slot n : Nat} {device : Device}

/-! ### The lowest free slot -/

/-- Slots that are all occupied are no more than there are pads. -/
theorem le_size_of_used (h : ∀ k < n, r.isUsed k = true) : n ≤ r.pads.size := by
  have hused : List.range n ⊆ r.pads.keys := by
    intro k hk
    rw [List.mem_range] at hk
    exact Table.mem_keys_iff_contains.mpr (h k hk)
  have hlength := (List.nodup_range.subperm hused).length_le
  rwa [List.length_range, Table.keys, List.length_map] at hlength

theorem freeSlot?_eq_some_iff :
    r.freeSlot? = some slot ↔
      slot < r.slotLimit ∧ r.pad? slot = none ∧ ∀ k < slot, r.isUsed k = true := by
  have hfree : (!r.isUsed slot) = true ↔ r.pad? slot = none := by
    rw [isUsed, Table.contains, Bool.not_eq_true', Option.isSome_eq_false_iff, pad?,
      Option.isNone_iff_eq_none]
  rw [freeSlot?, List.find?_range_eq_some, hfree, List.mem_range]
  constructor
  · rintro ⟨hnone, hlt, hbelow⟩
    exact ⟨by omega, hnone, fun k hk => by simpa using hbelow k hk⟩
  · rintro ⟨hlt, hnone, hbelow⟩
    -- the occupied slots below are no more than the pads, so the search comes as far as this slot
    have hsize := le_size_of_used hbelow
    exact ⟨hnone, by omega, fun k hk => by simpa using hbelow k hk⟩

theorem freeSlot?_eq_none_iff : r.freeSlot? = none ↔ ∀ k < r.slotLimit, r.isUsed k = true := by
  rw [freeSlot?, List.find?_range_eq_none]
  constructor
  · intro h
    have hused : ∀ k < min r.slotLimit (r.pads.size + 1), r.isUsed k = true :=
      fun k hk => by simpa using h k hk
    -- one slot more than there are pads cannot be occupied, so the search has seen all slots
    have hsize := le_size_of_used hused
    exact fun k hk => hused k (by omega)
  · intro h k hk
    simpa using h k (by omega)

/-! ### The new pad -/

/-- The pad that a device gets in a slot. Scheme and display data are what the register says of its
model; it is bound to the port that waits for the slot; and it has decoded nothing yet. -/
def newcomer (r : Router) (slot : Nat) (device : Device) : Pad :=
  let found := r.register.resolve device.vendorId device.productId
  { kind := if device.isMouse then .mouse else .joystick
    port := r.reservations.portOf? slot
    givenName := found.name
    icon := found.icon
    keyMap := none
    device := some device
    known := found.known
    notify := false
    decoder := { scheme := found.scheme, history := {} }
    held := {} }

theorem newcomer_eq (r : Router) (slot : Nat) (device : Device) :
    r.newcomer slot device = (r.padFor device).setPort (r.reservations.portOf? slot) := rfl

/-- A port waits for one slot at most, and a slot has one port at most. -/
theorem Follows.portOf?_eq_some_iff (h : r.Follows plan) {port : Port} :
    r.reservations.portOf? slot = some port ↔ r.reservations.get port = some slot := by
  refine ⟨Reservations.get_of_portOf?, fun hport => ?_⟩
  cases hfound : r.reservations.portOf? slot with
  | none => exact absurd hport (Reservations.portOf?_eq_none_iff.mp hfound port)
  | some other =>
    have hother := Reservations.get_of_portOf? hfound
    rw [h.reserved] at hport hother
    rw [h.exclusive other port slot hother hport]

/-- To seat a device puts its pad into the slot and does nothing else. -/
theorem Follows.seat_eq (h : r.Follows plan) (slot : Nat) (device : Device) :
    (r.seat slot device).state =
      { r with pads := r.pads.insert slot (r.newcomer slot device) } := by
  rw [seat_state, newcomer_eq]
  cases hport : r.reservations.portOf? slot with
  | none =>
    have hnone := Reservations.portOf?_eq_none_iff.mp hport
    exact applyReservations_of_none (r := r.placed slot device) hnone
  | some port =>
    have hreserved := Reservations.get_of_portOf? hport
    have hother : r.reservations.get port.other ≠ some slot := by
      intro hboth
      have hsame := (h.portOf?_eq_some_iff.mpr hboth).symm.trans hport
      cases port <;> cases hsame
    rw [applyReservations_of_reserved (r := r.placed slot device) hreserved hother]
    refine eq_of_pad? ?_ fun k => ?_
    · -- the reservations are claimed again as they are
      have hclaim : ((r.placed slot device).bindPort slot port).state.reservations =
          r.reservations := Reservations.claim_of_reserved hreserved hother
      rw [hclaim]
      rfl
    · rw [pad?_bindPort, pad?_placed, pad?_insert]
      by_cases hk : k = slot
      · simp [hk]
      · -- no other pad holds the port, as each sits in the slot that its port waits for
        rw [if_neg hk, if_neg hk]
        cases hp : r.pad? k with
        | none => rfl
        | some p =>
          have hnot : p.port ≠ some port := by
            intro hbound
            have hplanned := (h.serves k p hp port).mp hbound
            rw [← h.reserved, hreserved] at hplanned
            exact hk (Option.some.inj hplanned).symm
          rw [Option.map_some, if_neg (Ne.symm hk), if_neg hnot]

/-! ### The arrival -/

theorem result_arrive_eq_some_iff :
    (r.arrive device).result = some slot ↔ r.Admits device slot := by
  rcases r.arrive_cases device with ⟨taken, hadmits, -, hresult⟩ | ⟨hrefused, -, hresult⟩
  · rw [hresult]
    constructor
    · intro hslot
      rwa [← Option.some.inj hslot]
    · intro hslot
      exact hadmits.free.symm.trans hslot.free
  · have hnot : ¬ r.Admits device slot := hrefused slot
    simp [hresult, hnot]

theorem state_arrive_of_admits (h : r.Admits device slot) :
    (r.arrive device).state = (r.seat slot device).state := by
  rcases r.arrive_cases device with ⟨taken, hadmits, hstate, -⟩ | ⟨hrefused, -, -⟩
  · have htaken : taken = slot := Option.some.inj (hadmits.free.symm.trans h.free)
    rw [hstate, htaken]
  · exact absurd h (hrefused slot)

theorem state_arrive_of_none (h : (r.arrive device).result = none) :
    (r.arrive device).state = r := by
  rcases r.arrive_cases device with ⟨taken, -, -, hresult⟩ | ⟨-, hstate, -⟩
  · rw [h] at hresult
    cases hresult
  · exact hstate

/-- **An arrival takes the lowest free slot and touches nothing else.** In every state that can be
reached, a device gets a slot if and only if it is external, no pad is registered at its location and
some slot below the limit is free. Then the slot is the lowest free one; it holds a fresh pad, which
is what the register says of the model and is bound to the port that waits for the slot; and nothing
else in the router has changed. A device that gets no slot changes nothing at all. -/
theorem arrival_takes_lowest_slot (c : Config) (register : Register) (cmds : List Command)
    (device : Device) :
    let r := (start c register).state.run cmds
    let o := r.arrive device
    (o.result.isSome = true ↔ device.isInternal = false ∧
      (∀ k p, r.pad? k = some p → p.location? ≠ some device.locationId) ∧
      ∃ k < r.slotLimit, r.pad? k = none) ∧
    (∀ slot, o.result = some slot →
      slot < r.slotLimit ∧ r.pad? slot = none ∧ (∀ k < slot, r.isUsed k = true) ∧
      o.state = { r with pads := r.pads.insert slot (r.newcomer slot device) } ∧
      (∀ port, (r.newcomer slot device).port = some port ↔
        r.reservations.get port = some slot) ∧
      ∀ k, o.state.pad? k = if k = slot then some (r.newcomer slot device) else r.pad? k) ∧
    (o.result = none → o.state = r) := by
  intro r o
  have hports : r.Follows (portPlan c cmds) := follows_run_start c register cmds
  refine ⟨?_, fun slot hslot => ?_, state_arrive_of_none⟩
  · rw [Option.isSome_iff_exists]
    constructor
    · rintro ⟨slot, hslot⟩
      have hadmits := result_arrive_eq_some_iff.mp hslot
      obtain ⟨hlt, hnone, -⟩ := freeSlot?_eq_some_iff.mp hadmits.free
      exact ⟨hadmits.external, slotOf?_eq_none_iff.mp hadmits.unknown, slot, hlt, hnone⟩
    · rintro ⟨hexternal, hunknown, k, hlt, hnone⟩
      cases hfree : r.freeSlot? with
      | some slot =>
        have hadmits : r.Admits device slot := ⟨hexternal, slotOf?_eq_none_iff.mpr hunknown, hfree⟩
        exact ⟨slot, result_arrive_eq_some_iff.mpr hadmits⟩
      | none =>
        obtain ⟨p, hp⟩ := isUsed_iff.mp (freeSlot?_eq_none_iff.mp hfree k hlt)
        rw [hnone] at hp
        cases hp
  · have hadmits := result_arrive_eq_some_iff.mp hslot
    obtain ⟨hlt, hnone, hbelow⟩ := freeSlot?_eq_some_iff.mp hadmits.free
    have hstate : o.state = { r with pads := r.pads.insert slot (r.newcomer slot device) } :=
      (state_arrive_of_admits hadmits).trans (hports.seat_eq slot device)
    refine ⟨hlt, hnone, hbelow, hstate, fun port => hports.portOf?_eq_some_iff, fun k => ?_⟩
    rw [hstate, pad?_insert]

end Router

end PadRouter

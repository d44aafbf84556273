import PadRouter.Proofs.Pad.Command
import PadRouter.Router

/-!
# The slots after each operation

What the operations of a router do to the pad in each slot.

* `Router.pad?_bindPort`, `Router.pad?_unbindPort`, `Router.pad?_remove`, `Router.pad?_onPad`,
  `Router.pad?_insert` — the pad in a slot afterwards.
* `Router.Admits`, `Router.arrive_cases` — an attached device either gets the lowest free slot or
  changes nothing.
* `Router.PadsRel` — pads in the same slots are related, with `Router.PadsRel.onPad` and its like
  for the operations on pads that are there; `Router.offerKey_induction` for a key.
* `Router.SameSources`, `Router.Undisturbed` — two routers whose slots hold the same sources, and
  in addition on the same ports.
-/

namespace PadRouter.Router

variable {r s t : Router} {slot : Nat} {location : String}

/-! ### Look-up -/

theorem isUsed_iff : r.isUsed slot = true ↔ ∃ p, r.pad? slot = some p :=
  Option.isSome_iff_exists

theorem slotOf?_eq_none_iff :
    r.slotOf? location = none ↔ ∀ k p, r.pad? k = some p → p.location? ≠ some location := by
  rw [slotOf?, Option.map_eq_none_iff, Table.find?_eq_none_iff]
  simp [pad?]

theorem exists_of_slotOf? (h : r.slotOf? location = some slot) :
    ∃ p, r.pad? slot = some p ∧ p.location? = some location := by
  obtain ⟨e, he, rfl⟩ := Option.map_eq_some_iff.mp h
  obtain ⟨hpad, hloc⟩ := Table.get?_of_find? he
  exact ⟨e.2, hpad, by simpa using hloc⟩

theorem slotOn_eq_none_iff {port : Port} :
    r.slotOn port = none ↔ ∀ k p, r.pad? k = some p → p.port ≠ some port := by
  rw [slotOn, Option.map_eq_none_iff, Table.find?_eq_none_iff]
  simp [pad?]

theorem exists_of_slotOn {port : Port} (h : r.slotOn port = some slot) :
    ∃ p, r.pad? slot = some p ∧ p.port = some port := by
  obtain ⟨e, he, rfl⟩ := Option.map_eq_some_iff.mp h
  obtain ⟨hpad, hport⟩ := Table.get?_of_find? he
  exact ⟨e.2, hpad, by simpa using hport⟩

/-- A router is given by the pads in its slots and by everything but them. -/
theorem eq_of_pad? (hrest : { s with pads := r.pads } = r) (hpads : ∀ k, s.pad? k = r.pad? k) :
    s = r := by
  have htable : s.pads = r.pads := Table.ext_get? hpads
  rw [← hrest, ← htable]

theorem lt_slotLimit_of_freeSlot? (h : r.freeSlot? = some slot) : slot < r.slotLimit := by
  have hmem := List.mem_of_find?_eq_some h
  rw [List.mem_range] at hmem
  omega

theorem pad?_of_freeSlot? (h : r.freeSlot? = some slot) : r.pad? slot = none := by
  have hfree := List.find?_some h
  rw [Option.eq_none_iff_forall_ne_some]
  intro p hp
  have hused : r.isUsed slot = true := isUsed_iff.mpr ⟨p, hp⟩
  simp [hused] at hfree

/-! ### The pad in a slot -/

theorem pad?_insert (r : Router) (slot k : Nat) (p : Pad) :
    ({ r with pads := r.pads.insert slot p } : Router).pad? k =
      if k = slot then some p else r.pad? k := by
  simp only [pad?, Table.get?_insert, Nat.compare_eq_eq]

theorem pad?_onPad {α : Type} (r : Router) (slot : Nat) (otherwise : α) (f : Pad → Outcome Pad α)
    (k : Nat) :
    (r.onPad slot otherwise f).state.pad? k =
      if k = slot then (r.pad? slot).map fun p => (f p).state else r.pad? k := by
  unfold onPad
  split
  next p hp =>
    rw [Outcome.mapState, pad?_insert, hp]
    rfl
  next hp =>
    rw [hp]
    split
    next h => rw [h, hp]; rfl
    next => rfl

theorem pad?_vacate (r : Router) (port : Port) (k : Nat) :
    (vacate port r.pads).get? k =
      (r.pad? k).map fun p => if p.port = some port then p.setPort none else p :=
  Table.get?_map ..

theorem pad?_bindPort (r : Router) (slot : Nat) (port : Port) (k : Nat) :
    (r.bindPort slot port).state.pad? k = (r.pad? k).map fun p =>
      if slot = k then p.setPort (some port)
      else if p.port = some port then p.setPort none
      else p := by
  simp only [bindPort, pad?, Table.get?_modify, Nat.compare_eq_eq]
  rw [pad?_vacate, pad?, Option.map_map]
  congr 1
  funext p
  -- a pad that has just been vacated is bound like any other
  by_cases hk : slot = k <;> by_cases hp : p.port = some port <;>
    simp [hk, hp, Pad.setPort]

theorem pad?_unbindPort (r : Router) (port : Port) (k : Nat) :
    (r.unbindPort port).pad? k =
      (r.pad? k).map fun p => if p.port = some port then p.setPort none else p :=
  pad?_vacate r port k

theorem pad?_remove (r : Router) (location : String) (k : Nat) :
    (r.remove location).state.pad? k =
      (r.pad? k).filter fun p => p.location? != some location :=
  Table.get?_filter ..

theorem pad?_setNotify (r : Router) (slot : Nat) (on : Bool) (k : Nat) :
    (r.setNotify slot on).pad? k =
      (r.pad? k).map fun p => if slot = k then p.setNotify on else p := by
  simp only [setNotify, pad?, Table.get?_modify, Nat.compare_eq_eq]

theorem pad?_refreshSchemes (r : Router) (k : Nat) :
    r.refreshSchemes.state.pad? k = (r.pad? k).map fun p => (p.resolve r.register).state := by
  simp only [refreshSchemes, pad?, Table.get?_map, Option.map_map]
  rfl

/-! ### Routers with the same sources -/

/-- The same slots are occupied, and the pads in each are related. -/
def PadsRel (R : Pad → Pad → Prop) (r s : Router) : Prop :=
  ∀ k, Option.Rel R (r.pad? k) (s.pad? k)

section PadsRel

variable {R Q : Pad → Pad → Prop} {k : Nat} {p q : Pad}

theorem PadsRel.exists_right (h : PadsRel R r s) (hp : r.pad? k = some p) :
    ∃ q, s.pad? k = some q ∧ R p q := by
  have hk := h k
  rw [hp] at hk
  generalize s.pad? k = b at hk
  cases hk with
  | some hpq => exact ⟨_, rfl, hpq⟩

theorem PadsRel.exists_left (h : PadsRel R r s) (hq : s.pad? k = some q) :
    ∃ p, r.pad? k = some p ∧ R p q := by
  have hk := h k
  rw [hq] at hk
  generalize r.pad? k = a at hk
  cases hk with
  | some hpq => exact ⟨_, rfl, hpq⟩

theorem PadsRel.of_map {f : Nat → Pad → Pad} (h : ∀ k, s.pad? k = (r.pad? k).map (f k))
    (hf : ∀ k p, R p (f k p)) : PadsRel R r s := by
  intro k
  rw [h]
  cases r.pad? k with
  | some p => exact .some (hf k p)
  | none => exact .none

theorem PadsRel.mono (h : PadsRel R r s) (hRQ : ∀ p q, R p q → Q p q) : PadsRel Q r s := by
  intro k
  have hk := h k
  generalize r.pad? k = a, s.pad? k = b at hk
  cases hk with
  | some hpq => exact .some (hRQ _ _ hpq)
  | none => exact .none

theorem PadsRel.trans (hR : ∀ p q u, R p q → R q u → R p u) (h₁ : PadsRel R r s)
    (h₂ : PadsRel R s t) : PadsRel R r t := by
  intro k
  have hk₁ := h₁ k
  have hk₂ := h₂ k
  generalize r.pad? k = a, s.pad? k = b, t.pad? k = c at hk₁ hk₂
  cases hk₁ with
  | some hpq =>
    cases hk₂ with
    | some hqu => exact .some (hR _ _ _ hpq hqu)
  | none =>
    cases hk₂
    exact .none

/-- A search that cannot tell related pads apart ends at the same slot. -/
theorem PadsRel.find?_eq (h : PadsRel R r s) {f : Pad → Bool} (hf : ∀ p q, R p q → f q = f p) :
    (s.pads.find? fun _ p => f p).map (·.1) = (r.pads.find? fun _ p => f p).map (·.1) := by
  have hmap : s.pads.map (fun _ p => f p) = r.pads.map fun _ p => f p := by
    refine Table.ext_get? fun k => ?_
    have hk := h k
    simp only [pad?] at hk
    rw [Table.get?_map, Table.get?_map]
    generalize r.pads.get? k = a, s.pads.get? k = b at hk
    cases hk with
    | some hpq => rw [Option.map_some, Option.map_some, hf _ _ hpq]
    | none => rfl
  rw [← Table.fst_find?_map s.pads (fun _ p => f p) fun _ b => b, hmap, Table.fst_find?_map]

/-! A relation that every pad has to itself is kept if it is kept at the pads that change. -/

theorem PadsRel.of_pads_eq (hrefl : ∀ p, R p p) (hpads : s.pads = r.pads) : PadsRel R r s :=
  .of_map (f := fun _ p => p) (fun k => by simp [pad?, hpads]) fun _ p => hrefl p

theorem PadsRel.onPad {α : Type} {otherwise : α} {f : Pad → Outcome Pad α} (hrefl : ∀ p, R p p)
    (hf : ∀ p, R p (f p).state) : PadsRel R r (r.onPad slot otherwise f).state := by
  refine .of_map (f := fun k p => if k = slot then (f p).state else p) (fun k => ?_) fun k p => ?_
  · rw [pad?_onPad]
    by_cases hk : k = slot <;> simp [hk]
  · split
    · exact hf p
    · exact hrefl p

theorem PadsRel.bindPort (hrefl : ∀ p, R p p) (hset : ∀ p port, R p (p.setPort port))
    (slot : Nat) (port : Port) : PadsRel R r (r.bindPort slot port).state := by
  refine .of_map (pad?_bindPort r slot port) fun k p => ?_
  split
  · exact hset p _
  · split
    · exact hset p _
    · exact hrefl p

theorem PadsRel.unbindPort (hrefl : ∀ p, R p p) (hset : ∀ p port, R p (p.setPort port))
    (port : Port) : PadsRel R r (r.unbindPort port) := by
  refine .of_map (pad?_unbindPort r port) fun k p => ?_
  split
  · exact hset p _
  · exact hrefl p

theorem PadsRel.setNotify (hrefl : ∀ p, R p p) (hset : ∀ p on, R p (p.setNotify on))
    (slot : Nat) (on : Bool) : PadsRel R r (r.setNotify slot on) := by
  refine .of_map (pad?_setNotify r slot on) fun k p => ?_
  split
  · exact hset p on
  · exact hrefl p

end PadsRel

/-- The slots hold the same sources. -/
structure SameSources (r s : Router) : Prop where
  slotLimit : s.slotLimit = r.slotLimit
  pads : PadsRel Pad.SameSource r s

/-- The slots hold the same sources on the same ports, and the reservations are the same. -/
structure Undisturbed (r s : Router) : Prop where
  slotLimit : s.slotLimit = r.slotLimit
  reservations : s.reservations = r.reservations
  pads : PadsRel Pad.Undisturbed r s

theorem SameSources.trans (h₁ : r.SameSources s) (h₂ : s.SameSources t) : r.SameSources t where
  slotLimit := h₂.slotLimit.trans h₁.slotLimit
  pads := .trans (fun _ _ _ => .trans) h₁.pads h₂.pads

theorem Undisturbed.sameSources (h : r.Undisturbed s) : r.SameSources s where
  slotLimit := h.slotLimit
  pads := h.pads.mono fun _ _ hpq => hpq.toSameSource

/-- Only the pads, the limit and the reservations count. -/
theorem Undisturbed.of_pads_eq (hlimit : s.slotLimit = r.slotLimit)
    (hreserved : s.reservations = r.reservations) (hpads : s.pads = r.pads) : r.Undisturbed s where
  slotLimit := hlimit
  reservations := hreserved
  pads := .of_pads_eq Pad.Undisturbed.refl hpads

theorem Undisturbed.refl (r : Router) : r.Undisturbed r := .of_pads_eq rfl rfl rfl

theorem Undisturbed.trans (h₁ : r.Undisturbed s) (h₂ : s.Undisturbed t) : r.Undisturbed t where
  slotLimit := h₂.slotLimit.trans h₁.slotLimit
  reservations := h₂.reservations.trans h₁.reservations
  pads := .trans (fun _ _ _ => .trans) h₁.pads h₂.pads

theorem SameSources.slotOf?_eq (h : r.SameSources s) (location : String) :
    s.slotOf? location = r.slotOf? location :=
  h.pads.find?_eq (f := fun p => p.location? == some location) fun p q hpq => by
    rw [hpq.location?]

theorem Undisturbed.slotOn_eq (h : r.Undisturbed s) (port : Port) : s.slotOn port = r.slotOn port :=
  h.pads.find?_eq (f := fun p => p.port == some port) fun p q hpq => by rw [hpq.port]

/-! ### Operations on pads that are there -/

theorem undisturbed_onPad {α : Type} (r : Router) (slot : Nat) (otherwise : α)
    {f : Pad → Outcome Pad α} (hf : ∀ p : Pad, p.Undisturbed (f p).state) :
    r.Undisturbed (r.onPad slot otherwise f).state where
  slotLimit := by unfold onPad; split <;> rfl
  reservations := by unfold onPad; split <;> rfl
  pads := .onPad Pad.Undisturbed.refl hf

theorem undisturbed_setNotify (r : Router) (slot : Nat) (on : Bool) :
    r.Undisturbed (r.setNotify slot on) where
  slotLimit := rfl
  reservations := rfl
  pads := .setNotify Pad.Undisturbed.refl Pad.undisturbed_setNotify slot on

theorem undisturbed_refreshSchemes (r : Router) : r.Undisturbed r.refreshSchemes.state where
  slotLimit := rfl
  reservations := rfl
  pads := .of_map (pad?_refreshSchemes r) fun _ p => p.undisturbed_resolve r.register

theorem undisturbed_editKeys (r : Router) (slot : Nat) (f : KeyMap → KeyMap) :
    r.Undisturbed (r.editKeys slot f).1 := by
  unfold editKeys
  split <;> exact .of_pads_eq rfl rfl rfl

theorem undisturbed_processHid (r : Router) (location : String) (reading : Reading) :
    r.Undisturbed (r.processHid location reading).state := by
  unfold processHid
  split
  · exact .refl r
  · exact undisturbed_onPad _ _ _ fun p => p.undisturbed_handleReading reading

/-- What asking one pad keeps, a key that is offered to many keeps. -/
theorem offerKey_induction {event : KeyMaps → Key → Pad → Outcome Pad Bool} {key : Key}
    {P : Router → Prop}
    (ask : ∀ r slot, P r → P (r.onPad slot false (event r.keyMaps key)).state)
    (ports : List Port) {r : Router} (h : P r) : P (offerKey event key r ports).state := by
  induction ports generalizing r with
  | nil => exact h
  | cons port rest ih =>
    unfold offerKey
    split
    · exact ih h
    next slot hslot =>
      have hfirst := ask r slot h
      -- the pad is asked in any case; the flag only decides whether the others are asked too
      simp only [Outcome.andThen]
      split
      · exact hfirst
      · exact ih hfirst

theorem undisturbed_offerKey {event : KeyMaps → Key → Pad → Outcome Pad Bool}
    (hevent : ∀ maps key (p : Pad), p.Undisturbed (event maps key p).state) (key : Key)
    (ports : List Port) (r : Router) : r.Undisturbed (offerKey event key r ports).state :=
  offerKey_induction (P := r.Undisturbed)
    (fun s slot hs => hs.trans (undisturbed_onPad s slot false (hevent s.keyMaps key))) ports
    (.refl r)

theorem undisturbed_onMouse (r : Router) (slot : Nat) {f : Pad → Outcome Pad Bool}
    (hf : ∀ p : Pad, p.Undisturbed (f p).state) :
    r.Undisturbed (r.onMouse slot f).state := by
  refine undisturbed_onPad r slot false fun p => ?_
  split
  · exact hf p
  · exact .refl p

/-! ### Ports -/

theorem sameSources_bindPort (r : Router) (slot : Nat) (port : Port) :
    r.SameSources (r.bindPort slot port).state where
  slotLimit := rfl
  pads := .bindPort Pad.SameSource.refl Pad.sameSource_setPort slot port

theorem sameSources_unbindPort (r : Router) (port : Port) :
    r.SameSources (r.unbindPort port) where
  slotLimit := rfl
  pads := .unbindPort Pad.SameSource.refl Pad.sameSource_setPort port

theorem sameSources_applyReservations (r : Router) (slot : Nat) :
    r.SameSources (r.applyReservations slot).state := by
  refine Outcome.forEach_induction (P := r.SameSources) (fun s port _ hs => ?_)
    (Undisturbed.refl r).sameSources
  split
  · exact hs.trans (sameSources_bindPort s slot port)
  · exact hs

/-! ### Devices -/

/-- The pad of a device, before it is bound to a port. -/
def padFor (r : Router) (device : Device) : Pad := (Pad.ofDevice r.register device).state

/-- The router with the pad of a device in a slot, before the pad is bound to a port. -/
def placed (r : Router) (slot : Nat) (device : Device) : Router :=
  { r with pads := r.pads.insert slot (r.padFor device) }

/-- A device is given a slot: it is external, its location is new, and the slot is the lowest free
one. -/
structure Admits (r : Router) (device : Device) (slot : Nat) : Prop where
  external : device.isInternal = false
  unknown : r.slotOf? device.locationId = none
  free : r.freeSlot? = some slot

theorem seat_state (r : Router) (slot : Nat) (device : Device) :
    (r.seat slot device).state = ((r.placed slot device).applyReservations slot).state := rfl

theorem sameSources_seat (r : Router) (slot : Nat) (device : Device) :
    (r.placed slot device).SameSources (r.seat slot device).state :=
  sameSources_applyReservations ..

theorem pad?_placed (r : Router) (slot : Nat) (device : Device) (k : Nat) :
    (r.placed slot device).pad? k = if k = slot then some (r.padFor device) else r.pad? k :=
  pad?_insert ..

/-- A device that was attached either gets the lowest free slot or changes nothing. -/
theorem arrive_cases (r : Router) (device : Device) :
    (∃ slot, r.Admits device slot ∧ (r.arrive device).state = (r.seat slot device).state ∧
      (r.arrive device).result = some slot) ∨
    ((∀ slot, ¬ r.Admits device slot) ∧ (r.arrive device).state = r ∧
      (r.arrive device).result = none) := by
  unfold arrive
  split
  next hinternal =>
    exact .inr ⟨fun slot h => by simp [h.external] at hinternal, rfl, rfl⟩
  next hexternal =>
    split
    next hknown =>
      exact .inr ⟨fun slot h => by simp [h.unknown] at hknown, rfl, rfl⟩
    next hunknown =>
      simp only [Outcome.andThen, findFreeSlot]
      cases hfree : r.freeSlot? with
      | some slot =>
        refine .inl ⟨slot, ⟨by simpa using hexternal, by simpa using hunknown, hfree⟩, ?_, ?_⟩
        · rfl
        · rfl
      | none => exact .inr ⟨fun slot h => by simp [h.free] at hfree, rfl, rfl⟩

end PadRouter.Router

import PadRouter.Proofs.Router.Command

/-!
# Who sits where

The first three slots belong to the built-in pads for good. Any other pad has an external device
behind it, sits below the limit, and keeps its slot until its device is detached.

* `Pad.IsBuiltin`, `Pad.IsDevicePad` — what may be seen of the two sorts of pads.
* `Router.WellSeated` — the limit, the built-in pads, the pads of devices, and one slot for each
  location.
* `Router.wellSeated_perform` — every command keeps it.
* `Router.stays_seated` — a device keeps its slot under all commands that do not bring its removal.
* `Router.slots_well_seated` — all of this after every run.
-/

namespace PadRouter

/-- A pad without a device, as it was made. -/
structure Pad.IsBuiltin (p : Pad) (kind : PadKind) (keys : KeyMapId) (name icon : String) :
    Prop where
  kind : p.kind = kind
  keyMap : p.keyMap = some keys
  name : p.name = name
  icon : p.icon = some icon
  device : p.device = none

/-- The pad of an external device. -/
structure Pad.IsDevicePad (p : Pad) (device : Device) : Prop where
  source : p.device = some device
  kind : p.kind = if device.isMouse then .mouse else .joystick
  keyMap : p.keyMap = none
  external : device.isInternal = false

namespace Pad

variable {p q : Pad}

theorem SameSource.isBuiltin {kind : PadKind} {keys : KeyMapId} {name icon : String}
    (h : p.SameSource q) (hp : p.IsBuiltin kind keys name icon) :
    q.IsBuiltin kind keys name icon where
  kind := h.kind.trans hp.kind
  keyMap := h.keyMap.trans hp.keyMap
  name := by
    rw [← hp.name, Pad.name, Pad.name, (h.label hp.device).1, h.device]
  icon := (h.label hp.device).2.trans hp.icon
  device := h.device.trans hp.device

theorem SameSource.isDevicePad {device : Device} (h : p.SameSource q)
    (hp : p.IsDevicePad device) : q.IsDevicePad device where
  source := h.device.trans hp.source
  kind := h.kind.trans hp.kind
  keyMap := h.keyMap.trans hp.keyMap
  external := hp.external

end Pad

namespace Router

/-- Every pad is where it may be. -/
structure WellSeated (limit : Nat) (r : Router) : Prop where
  slotLimit : r.slotLimit = limit
  builtin : ∀ k b, builtinPads.get? k = some b → ∃ p, r.pad? k = some p ∧ b.SameSource p
  device : ∀ k p, r.pad? k = some p → builtinPads.get? k = none →
    k < limit ∧ ∃ device, p.IsDevicePad device
  unique : ∀ j k p q location, r.pad? j = some p → r.pad? k = some q →
    p.location? = some location → q.location? = some location → j = k

variable {r s : Router} {limit : Nat}

/-! ### The built-in pads -/

theorem builtinPads_get?_eq_none_iff {k : Nat} : builtinPads.get? k = none ↔ 3 ≤ k := by
  have hkeys : builtinPads.keys = [0, 1, 2] := by decide
  rw [Table.get?_eq_none_iff, hkeys]
  simp only [List.mem_cons, List.not_mem_nil, or_false]
  omega

theorem device_builtin {k : Nat} {b : Pad} (h : builtinPads.get? k = some b) :
    b.device = none := by
  have hall : ∀ e ∈ builtinPads.entries, e.2.device = none := by decide
  exact hall (k, b) (Table.get?_eq_some_iff_mem.mp h)

/-! ### Preservation -/

theorem WellSeated.sameSources (h : r.WellSeated limit) (hrs : r.SameSources s) :
    s.WellSeated limit where
  slotLimit := hrs.slotLimit.trans h.slotLimit
  builtin k b hb := by
    obtain ⟨p, hp, hbp⟩ := h.builtin k b hb
    obtain ⟨q, hq, hpq⟩ := hrs.pads.exists_right hp
    exact ⟨q, hq, hbp.trans hpq⟩
  device k q hq hk := by
    obtain ⟨p, hp, hpq⟩ := hrs.pads.exists_left hq
    obtain ⟨hlt, device, hdevice⟩ := h.device k p hp hk
    exact ⟨hlt, device, hpq.isDevicePad hdevice⟩
  unique j k q q' location hq hq' hloc hloc' := by
    obtain ⟨p, hp, hpq⟩ := hrs.pads.exists_left hq
    obtain ⟨p', hp', hpq'⟩ := hrs.pads.exists_left hq'
    rw [hpq.location?] at hloc
    rw [hpq'.location?] at hloc'
    exact h.unique j k p p' location hp hp' hloc hloc'

theorem isDevicePad_padFor (r : Router) {device : Device} (h : device.isInternal = false) :
    (r.padFor device).IsDevicePad device :=
  ⟨rfl, rfl, rfl, h⟩

theorem WellSeated.placed (h : r.WellSeated limit) {slot : Nat} {device : Device}
    (hadmits : r.Admits device slot) : (r.placed slot device).WellSeated limit where
  slotLimit := h.slotLimit
  builtin k b hb := by
    obtain ⟨p, hp, hbp⟩ := h.builtin k b hb
    have hk : k ≠ slot := by
      rintro rfl
      simp [pad?_of_freeSlot? hadmits.free] at hp
    rw [pad?_placed, if_neg hk]
    exact ⟨p, hp, hbp⟩
  device k p hp hk := by
    rw [pad?_placed] at hp
    split at hp
    next hslot =>
      obtain rfl := Option.some.inj hp
      have hlt := lt_slotLimit_of_freeSlot? hadmits.free
      rw [h.slotLimit] at hlt
      exact ⟨hslot ▸ hlt, device, isDevicePad_padFor r hadmits.external⟩
    next => exact h.device k p hp hk
  unique j k p q location hp hq hloc hloc' := by
    -- the location of the new pad is nowhere else
    have hnew : ∀ i u, r.pad? i = some u → u.location? ≠ some device.locationId :=
      slotOf?_eq_none_iff.mp hadmits.unknown
    rw [pad?_placed] at hp hq
    split at hp <;> split at hq
    next hj hk => rw [hj, hk]
    next hj hk =>
      obtain rfl := Option.some.inj hp
      obtain rfl := Option.some.inj hloc
      exact absurd hloc' (hnew k q hq)
    next hj hk =>
      obtain rfl := Option.some.inj hq
      obtain rfl := Option.some.inj hloc'
      exact absurd hloc (hnew j p hp)
    next => exact h.unique j k p q location hp hq hloc hloc'

theorem WellSeated.seat (h : r.WellSeated limit) {slot : Nat} {device : Device}
    (hadmits : r.Admits device slot) : (r.seat slot device).state.WellSeated limit :=
  (h.placed hadmits).sameSources (sameSources_seat r slot device)

theorem WellSeated.remove (h : r.WellSeated limit) (location : String) :
    (r.remove location).state.WellSeated limit where
  slotLimit := h.slotLimit
  builtin k b hb := by
    obtain ⟨p, hp, hbp⟩ := h.builtin k b hb
    refine ⟨p, ?_, hbp⟩
    have hdevice : p.device = none := hbp.device.trans (device_builtin hb)
    simp [pad?_remove, hp, Pad.location?, hdevice]
  device k p hp hk := by
    rw [pad?_remove, Option.filter_eq_some_iff] at hp
    exact h.device k p hp.1 hk
  unique j k p q loc hp hq := by
    rw [pad?_remove, Option.filter_eq_some_iff] at hp hq
    exact h.unique j k p q loc hp.1 hq.1

theorem wellSeated_perform (h : r.WellSeated limit) (cmd : Command) :
    (r.perform cmd).state.WellSeated limit := by
  refine perform_induction (P := WellSeated limit) ?_ ?_ ?_ ?_ ?_ h
  · exact fun r s hrs hr => hr.sameSources hrs.sameSources
  · exact fun r slot device _ hadmits hr => hr.seat hadmits
  · exact fun r location _ hr => hr.remove location
  · exact fun r slot port _ hr => hr.sameSources (sameSources_bindPort r slot port)
  · exact fun r port _ hr => hr.sameSources (sameSources_unbindPort r port)

theorem wellSeated_run (h : r.WellSeated limit) (cmds : List Command) :
    (r.run cmds).WellSeated limit :=
  run_induction (P := WellSeated limit) (fun _ cmd _ hr => wellSeated_perform hr cmd) h

theorem wellSeated_start (c : Config) (register : Register) :
    (start c register).state.WellSeated (max c.slotLimit.toNat builtinSlots) := by
  refine Outcome.forEach_induction (P := WellSeated (max c.slotLimit.toNat builtinSlots))
    (fun r port _ hr => ?_) ?_
  · split
    · exact hr.sameSources (sameSources_bindPort ..)
    · exact hr
  · refine ⟨rfl, fun k b hb => ⟨b, hb, .refl b⟩, fun k p hp hk => ?_, ?_⟩
    · simp [pad?, hk] at hp
    · intro j k p q location hp hq hloc
      simp [Pad.location?, device_builtin hp] at hloc

/-! ### Keeping the slot -/

/-- A device keeps its slot under every command that does not bring its removal. -/
theorem stays_seated {k : Nat} {device : Device} {cmds : List Command}
    (hseat : ∃ p, r.pad? k = some p ∧ p.device = some device)
    (hstays : ∀ cmd ∈ cmds, .removed device.locationId ∉ cmd.events) :
    ∃ p, (r.run cmds).pad? k = some p ∧ p.device = some device := by
  have hsame : ∀ r s : Router, r.SameSources s → (∃ p, r.pad? k = some p ∧ p.device = some device) →
      ∃ p, s.pad? k = some p ∧ p.device = some device := by
    rintro r s hrs ⟨p, hp, hdevice⟩
    obtain ⟨q, hq, hpq⟩ := hrs.pads.exists_right hp
    exact ⟨q, hq, hpq.device.trans hdevice⟩
  refine run_induction (P := fun r => ∃ p, r.pad? k = some p ∧ p.device = some device)
    (fun r cmd hcmd hr => ?_) hseat
  refine perform_induction (P := fun r => ∃ p, r.pad? k = some p ∧ p.device = some device)
    ?_ ?_ ?_ ?_ ?_ hr
  · exact fun r s hrs => hsame r s hrs.sameSources
  · rintro r slot new - hadmits ⟨p, hp, hdevice⟩
    -- a new device sits in a slot that was free
    have hk : k ≠ slot := by
      rintro rfl
      simp [pad?_of_freeSlot? hadmits.free] at hp
    refine hsame _ _ (sameSources_seat r slot new) ⟨p, ?_, hdevice⟩
    rw [pad?_placed, if_neg hk, hp]
  · rintro r location hremoved ⟨p, hp, hdevice⟩
    have hother : device.locationId ≠ location := by
      rintro rfl
      exact hstays cmd hcmd hremoved
    refine ⟨p, ?_, hdevice⟩
    have hkept : p.location? ≠ some location := by simpa [Pad.location?, hdevice] using hother
    rw [pad?_remove, hp, Option.filter_some, if_pos (by simpa using hkept)]
  · exact fun r slot port _ => hsame r _ (sameSources_bindPort r slot port)
  · exact fun r port _ => hsame r _ (sameSources_unbindPort r port)

theorem exists_pad_of_arrive {k : Nat} {device : Device} (h : (r.arrive device).result = some k) :
    ∃ p, (r.arrive device).state.pad? k = some p ∧ p.device = some device := by
  rcases r.arrive_cases device with ⟨slot, -, hstate, hresult⟩ | ⟨-, -, hresult⟩
  · rw [hresult] at h
    obtain rfl := Option.some.inj h
    have hplaced : (r.placed slot device).pad? slot = some (r.padFor device) := by
      rw [pad?_placed, if_pos rfl]
    obtain ⟨p, hp, hsource⟩ := (sameSources_seat r slot device).pads.exists_right hplaced
    rw [hstate]
    exact ⟨p, hp, hsource.device⟩
  · simp [hresult] at h

/-! ### One slot for each location -/

theorem WellSeated.slotOf?_eq_some_iff (h : r.WellSeated limit) {k : Nat} {location : String} :
    r.slotOf? location = some k ↔ ∃ p, r.pad? k = some p ∧ p.location? = some location := by
  refine ⟨exists_of_slotOf?, fun ⟨p, hp, hloc⟩ => ?_⟩
  cases hslot : r.slotOf? location with
  | none => exact absurd hloc (slotOf?_eq_none_iff.mp hslot k p hp)
  | some j =>
    obtain ⟨q, hq, hloc'⟩ := exists_of_slotOf? hslot
    rw [h.unique j k q p location hq hp hloc' hloc]

theorem mem_result_remove {k : Nat} {location : String} :
    k ∈ (r.remove location).result ↔ ∃ p, r.pad? k = some p ∧ p.location? = some location := by
  change k ∈ (r.pads.filter fun _ p => p.location? == some location).keys ↔ _
  rw [Table.mem_keys_iff]
  simp [Table.get?_filter, Option.filter_eq_some_iff, pad?]

theorem WellSeated.result_remove (h : r.WellSeated limit) (location : String) :
    (r.remove location).result = (r.slotOf? location).toList := by
  have hmem : ∀ k, k ∈ (r.remove location).result ↔ k ∈ (r.slotOf? location).toList := by
    intro k
    rw [mem_result_remove, Option.mem_toList]
    exact h.slotOf?_eq_some_iff.symm
  have hsorted : (r.remove location).result.Pairwise fun a b => compare a b = .lt :=
    Table.pairwise_keys _
  cases hslot : r.slotOf? location with
  | none =>
    rw [hslot] at hmem
    exact List.eq_nil_iff_forall_not_mem.mpr fun k hk => by simpa using (hmem k).mp hk
  | some j =>
    simp only [hslot, Option.toList_some, List.mem_singleton] at hmem
    generalize (r.remove location).result = freed at hmem hsorted
    -- all freed slots are `j`, and no slot is listed twice
    cases freed with
    | nil => simpa using (hmem j).mpr rfl
    | cons a rest =>
      have ha : a = j := (hmem a).mp List.mem_cons_self
      cases rest with
      | nil => rw [ha]; rfl
      | cons b rest =>
        have hb : b = j := (hmem b).mp (by simp)
        have hlt := (List.pairwise_cons.mp hsorted).1 b List.mem_cons_self
        simp [ha, hb] at hlt

/-- **The slots after every run.** The limit is that of the configuration and leaves room for the
built-in pads; these sit in the first three slots as they were made; any other pad sits between them
and the limit and belongs to an external device; no two pads have one location. A device is found
from its arrival on in the slot it was given, until its removal, which hence frees that one slot. -/
theorem slots_well_seated (c : Config) (register : Register) (cmds : List Command) :
    let r := (start c register).state.run cmds
    r.slotLimit = max c.slotLimit.toNat 3 ∧
    (∃ p, r.pad? 0 = some p ∧ p.IsBuiltin .mouse .mouse "Mouse" "devMouse") ∧
    (∃ p, r.pad? 1 = some p ∧
      p.IsBuiltin .joystick .keyset1 "Joystick Keyset 1" "devKeyset1") ∧
    (∃ p, r.pad? 2 = some p ∧
      p.IsBuiltin .joystick .keyset2 "Joystick Keyset 2" "devKeyset2") ∧
    (∀ k p, r.pad? k = some p → 3 ≤ k →
      k < r.slotLimit ∧ ∃ device, p.IsDevicePad device) ∧
    (∀ j k p q location, r.pad? j = some p → r.pad? k = some q →
      p.location? = some location → q.location? = some location → j = k) ∧
    (∀ device k, (r.arrive device).result = some k →
      ∃ p, (r.arrive device).state.pad? k = some p ∧ p.device = some device) ∧
    (∀ k p device, r.pad? k = some p → p.device = some device → ∀ more : List Command,
      (∀ cmd ∈ more, .removed device.locationId ∉ cmd.events) →
      (∃ q, (r.run more).pad? k = some q ∧ q.device = some device) ∧
        (r.run more).slotOf? device.locationId = some k) ∧
    ∀ location, (r.remove location).result = (r.slotOf? location).toList ∧
      (r.remove location).result.length ≤ 1 := by
  intro r
  have hr : r.WellSeated (max c.slotLimit.toNat 3) :=
    wellSeated_run (wellSeated_start c register) cmds
  refine ⟨hr.slotLimit, ?_, ?_, ?_, ?_, hr.unique, fun _ _ => exists_pad_of_arrive, ?_, ?_⟩
  · obtain ⟨p, hp, hsource⟩ := hr.builtin 0 _ rfl
    exact ⟨p, hp, hsource.isBuiltin ⟨rfl, rfl, rfl, rfl, rfl⟩⟩
  · obtain ⟨p, hp, hsource⟩ := hr.builtin 1 _ rfl
    exact ⟨p, hp, hsource.isBuiltin ⟨rfl, rfl, rfl, rfl, rfl⟩⟩
  · obtain ⟨p, hp, hsource⟩ := hr.builtin 2 _ rfl
    exact ⟨p, hp, hsource.isBuiltin ⟨rfl, rfl, rfl, rfl, rfl⟩⟩
  · intro k p hp hk
    rw [hr.slotLimit]
    exact hr.device k p hp (builtinPads_get?_eq_none_iff.mpr hk)
  · intro k p device hp hdevice more hstays
    obtain ⟨q, hq, hdevice'⟩ := stays_seated ⟨p, hp, hdevice⟩ hstays
    refine ⟨⟨q, hq, hdevice'⟩, (wellSeated_run hr more).slotOf?_eq_some_iff.mpr ⟨q, hq, ?_⟩⟩
    rw [Pad.location?, hdevice', Option.map_some]
  · intro location
    have hresult := hr.result_remove location
    refine ⟨hresult, ?_⟩
    rw [hresult]
    cases r.slotOf? location <;> simp

end Router

end PadRouter

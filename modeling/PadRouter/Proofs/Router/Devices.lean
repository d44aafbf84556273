import PadRouter.Proofs.Router.Seats

/-!
# Which devices have a pad

* `Router.HasPad`, `Router.Registered` — a device, and a location, that some slot belongs to.
* `Router.hasPad_seat`, `Router.hasPad_remove`, `Router.SameSources.hasPad_iff` — the devices after
  each thing that a command can do.
* `Router.hasPad_of_run`, `Router.registered_run`, `Router.not_registered_run` — a pad comes from an
  arrival, stays until a removal and does not come without an arrival.
* `Router.not_registered_handleAll` — what was removed has no pad until it arrives again.
-/

namespace PadRouter.Router

variable {r s : Router} {device : Device} {location : String} {cmds : List Command}

/-- A slot belongs to the device. -/
def HasPad (r : Router) (device : Device) : Prop :=
  ∃ k p, r.pad? k = some p ∧ p.device = some device

/-- A slot belongs to some device at the location. -/
def Registered (r : Router) (location : String) : Prop :=
  ∃ device, r.HasPad device ∧ device.locationId = location

/-- No slot belongs to a device. -/
def Vacant (r : Router) : Prop := ∀ device, ¬ r.HasPad device

theorem registered_iff : r.Registered location ↔ (r.slotOf? location).isSome = true := by
  constructor
  · rintro ⟨device, ⟨k, p, hp, hdevice⟩, rfl⟩
    have hloc : p.location? = some device.locationId := by
      rw [Pad.location?, hdevice, Option.map_some]
    cases hslot : r.slotOf? device.locationId with
    | some slot => rfl
    | none => exact absurd hloc (slotOf?_eq_none_iff.mp hslot k p hp)
  · intro hsome
    obtain ⟨k, hk⟩ := Option.isSome_iff_exists.mp hsome
    obtain ⟨p, hp, hloc⟩ := exists_of_slotOf? hk
    obtain ⟨device, hdevice, hloc⟩ := Option.map_eq_some_iff.mp hloc
    exact ⟨device, ⟨k, p, hp, hdevice⟩, hloc⟩

/-! ### What a command can do -/

theorem SameSources.hasPad_iff (h : r.SameSources s) : s.HasPad device ↔ r.HasPad device := by
  constructor
  · rintro ⟨k, q, hq, hdevice⟩
    obtain ⟨p, hp, hpq⟩ := h.pads.exists_left hq
    exact ⟨k, p, hp, hpq.device.symm.trans hdevice⟩
  · rintro ⟨k, p, hp, hdevice⟩
    obtain ⟨q, hq, hpq⟩ := h.pads.exists_right hp
    exact ⟨k, q, hq, hpq.device.trans hdevice⟩

theorem hasPad_seat {slot : Nat} {new : Device} (hadmits : r.Admits new slot) :
    (r.seat slot new).state.HasPad device ↔ device = new ∨ r.HasPad device := by
  rw [(sameSources_seat r slot new).hasPad_iff]
  constructor
  · rintro ⟨k, p, hp, hdevice⟩
    rw [pad?_placed] at hp
    split at hp
    next =>
      obtain rfl := Option.some.inj hp
      exact .inl (Option.some.inj hdevice).symm
    next => exact .inr ⟨k, p, hp, hdevice⟩
  · rintro (rfl | ⟨k, p, hp, hdevice⟩)
    · exact ⟨slot, r.padFor device, by rw [pad?_placed, if_pos rfl], rfl⟩
    · have hk : k ≠ slot := by
        rintro rfl
        simp [pad?_of_freeSlot? hadmits.free] at hp
      exact ⟨k, p, by rw [pad?_placed, if_neg hk, hp], hdevice⟩

theorem hasPad_remove :
    (r.remove location).state.HasPad device ↔ r.HasPad device ∧ device.locationId ≠ location := by
  have hother : ∀ p : Pad, p.device = some device →
      ((p.location? != some location) = true ↔ device.locationId ≠ location) := by
    intro p hdevice
    rw [Pad.location?, hdevice]
    simp
  constructor
  · rintro ⟨k, p, hp, hdevice⟩
    rw [pad?_remove, Option.filter_eq_some_iff] at hp
    exact ⟨⟨k, p, hp.1, hdevice⟩, (hother p hdevice).mp hp.2⟩
  · rintro ⟨⟨k, p, hp, hdevice⟩, hne⟩
    have hkept : (r.remove location).state.pad? k = some p := by
      rw [pad?_remove, Option.filter_eq_some_iff]
      exact ⟨hp, (hother p hdevice).mpr hne⟩
    exact ⟨k, p, hkept, hdevice⟩

/-! ### Runs -/

theorem hasPad_of_perform {cmd : Command} (h : (r.perform cmd).state.HasPad device) :
    r.HasPad device ∨ .arrived device ∈ cmd.events := by
  have hsame : ∀ s t : Router, s.SameSources t →
      (s.HasPad device → r.HasPad device ∨ .arrived device ∈ cmd.events) →
      t.HasPad device → r.HasPad device ∨ .arrived device ∈ cmd.events :=
    fun s t hst hs ht => hs (hst.hasPad_iff.mp ht)
  refine perform_induction
    (P := fun s => s.HasPad device → r.HasPad device ∨ .arrived device ∈ cmd.events)
    ?_ ?_ ?_ ?_ ?_ .inl h
  · exact fun s t hst => hsame s t hst.sameSources
  · intro s slot new harrived hadmits hs ht
    rcases (hasPad_seat hadmits).mp ht with rfl | hold
    · exact .inr harrived
    · exact hs hold
  · exact fun s gone _ hs ht => hs (hasPad_remove.mp ht).1
  · exact fun s slot port _ => hsame s _ (sameSources_bindPort s slot port)
  · exact fun s port _ => hsame s _ (sameSources_unbindPort s port)

/-- Whoever has a pad had it before or has arrived. -/
theorem hasPad_of_run (h : (r.run cmds).HasPad device) :
    r.HasPad device ∨ ∃ cmd ∈ cmds, .arrived device ∈ cmd.events := by
  induction cmds generalizing r with
  | nil => exact .inl h
  | cons cmd rest ih =>
    rcases ih h with hold | ⟨later, hlater, harrived⟩
    · rcases hasPad_of_perform hold with hold | harrived
      · exact .inl hold
      · exact .inr ⟨cmd, List.mem_cons_self, harrived⟩
    · exact .inr ⟨later, List.mem_cons_of_mem _ hlater, harrived⟩

theorem hasPad_run (h : r.HasPad device)
    (hstays : ∀ cmd ∈ cmds, .removed device.locationId ∉ cmd.events) :
    (r.run cmds).HasPad device := by
  obtain ⟨k, hseat⟩ := h
  exact ⟨k, stays_seated hseat hstays⟩

theorem registered_run (h : r.Registered location)
    (hstays : ∀ cmd ∈ cmds, .removed location ∉ cmd.events) : (r.run cmds).Registered location := by
  obtain ⟨device, hpad, rfl⟩ := h
  exact ⟨device, hasPad_run hpad hstays, rfl⟩

theorem not_registered_run (h : ¬ r.Registered location)
    (hnew : ∀ cmd ∈ cmds, ∀ device, .arrived device ∈ cmd.events → device.locationId ≠ location) :
    ¬ (r.run cmds).Registered location := by
  rintro ⟨device, hpad, rfl⟩
  rcases hasPad_of_run hpad with hold | ⟨cmd, hcmd, harrived⟩
  · exact h ⟨device, hold, rfl⟩
  · exact hnew cmd hcmd device harrived rfl

theorem vacant_start (c : Config) (register : Register) : (start c register).state.Vacant := by
  refine Outcome.forEach_induction (P := Vacant) (fun r port _ hr => ?_) ?_
  · split
    · exact fun device hpad => hr device ((sameSources_bindPort ..).hasPad_iff.mp hpad)
    · exact hr
  · rintro device ⟨k, p, hp, hdevice⟩
    simp [device_builtin hp] at hdevice

/-! ### Events one after the other -/

theorem run_map_handle (r : Router) (events : List HidEvent) :
    r.run (events.map .handle) = (r.handleAll events).state := by
  induction events generalizing r with
  | nil => rfl
  | cons e rest ih => exact ih (r.handle e).state

/-- A location is not registered any more once its removal has been told, unless it arrives again. -/
theorem not_registered_handleAll {before after : List HidEvent}
    (hafter : ∀ device, .arrived device ∈ after → device.locationId ≠ location) :
    ¬ (r.handleAll (before ++ .removed location :: after)).state.Registered location := by
  rw [← run_map_handle, List.map_append, List.map_cons, run_append, run_cons]
  refine not_registered_run ?_ fun cmd hcmd device harrived => ?_
  · rintro ⟨device, hpad, hloc⟩
    exact (hasPad_remove.mp hpad).2 hloc
  · obtain ⟨e, he, rfl⟩ := List.mem_map.mp hcmd
    obtain rfl := List.mem_singleton.mp harrived
    exact hafter device he

end PadRouter.Router

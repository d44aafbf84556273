import Mathlib.Data.List.Induction
import Mathlib.Data.List.Perm.Subperm
import PadRouter.Proofs.Router.Arrival
import PadRouter.Proofs.Router.Hosted

/-!
# Room for a device

A device asks for a slot once, when it arrives. If it is refused it stays without a pad, however many
slots become free while it is attached.

* `Router.exists_freeSlot?`, `Router.size_handleAll_arrived` — a slot is free while there are fewer
  pads than slots, and arrivals fill at most one slot each.
* `Hosted.Entrance` — how a device that is attached has come there.
* `Hosted.Entrance.HasRoom`, `Hosted.Entrance.Fits` — a slot was left for it; the devices that were
  attached or came with it were not too many.
* `Hosted.exists_entrance` — whatever is attached has come in some turn, and nothing since then
  decides whether it has a pad.
* `Hosted.registered_where_room` — every device that found room has a pad as long as it stays.
-/

namespace PadRouter

namespace Router

variable {r s : Router} {limit : Nat}

/-! ### Free slots -/

/-- A slot is free while there are fewer pads than slots. -/
theorem exists_freeSlot? (h : r.pads.size < r.slotLimit) : ∃ slot, r.freeSlot? = some slot := by
  cases hfree : r.freeSlot? with
  | some slot => exact ⟨slot, rfl⟩
  | none =>
    have hsize := le_size_of_used (freeSlot?_eq_none_iff.mp hfree)
    omega

theorem SameSources.size_eq (h : r.SameSources s) : s.pads.size = r.pads.size := by
  have hslots : (s.pads.map fun _ _ => ()) = r.pads.map fun _ _ => () := by
    refine Table.ext_get? fun k => ?_
    rw [Table.get?_map, Table.get?_map]
    have hk := h.pads k
    change (s.pad? k).map _ = (r.pad? k).map _
    generalize r.pad? k = a, s.pad? k = b at hk
    cases hk <;> rfl
  have hsize := congrArg Table.size hslots
  simpa [Table.size, Table.map] using hsize

theorem size_arrive_le (r : Router) (device : Device) :
    (r.arrive device).state.pads.size ≤ r.pads.size + (if device.isInternal then 0 else 1) := by
  rcases r.arrive_cases device with ⟨slot, hadmits, hstate, -⟩ | ⟨-, hstate, -⟩
  · rw [hstate, (sameSources_seat r slot device).size_eq, hadmits.external]
    exact Table.size_insert_le ..
  · rw [hstate]
    exact Nat.le_add_right ..

theorem size_handleAll_arrived (r : Router) (devices : List Device) :
    (r.handleAll (devices.map .arrived)).state.pads.size ≤
      r.pads.size + devices.countP fun device => !device.isInternal := by
  induction devices generalizing r with
  | nil => exact Nat.le_refl _
  | cons device rest ih =>
    have hfirst := r.size_arrive_le device
    have hrest := ih (r.arrive device).state
    rw [List.countP_cons]
    refine Nat.le_trans hrest ?_
    cases hinternal : device.isInternal <;> simp [hinternal] at hfirst ⊢ <;> omega

theorem slotLimit_run (r : Router) (cmds : List Command) :
    (r.run cmds).slotLimit = r.slotLimit := by
  refine run_induction (P := fun s => s.slotLimit = r.slotLimit) (fun s cmd _ hs => ?_) rfl
  refine perform_induction (P := fun s => s.slotLimit = r.slotLimit) ?_ ?_ ?_ ?_ ?_ hs
  · exact fun s t hst hs => hst.slotLimit.trans hs
  · exact fun s slot device _ _ hs => (sameSources_seat s slot device).slotLimit.trans hs
  · exact fun s location _ hs => hs
  · exact fun s slot port _ hs => hs
  · exact fun s port _ hs => hs

/-- An external device gets a pad if its location is new and there is room. -/
theorem hasPad_arrive {device : Device} (hexternal : device.isInternal = false)
    (hnew : ¬ r.Registered device.locationId) (hroom : r.pads.size < r.slotLimit) :
    (r.arrive device).state.HasPad device := by
  rcases r.arrive_cases device with ⟨slot, hadmits, hstate, -⟩ | ⟨hrefused, -, -⟩
  · rw [hstate]
    exact (hasPad_seat hadmits).mpr (.inl rfl)
  · obtain ⟨slot, hfree⟩ := exists_freeSlot? hroom
    have hunknown : r.slotOf? device.locationId = none := by
      rw [registered_iff] at hnew
      simpa using hnew
    exact absurd ⟨hexternal, hunknown, hfree⟩ (hrefused slot)

/-! ### How many pads there are -/

theorem WellSeated.external (h : r.WellSeated limit) {device : Device} (hpad : r.HasPad device) :
    device.isInternal = false := by
  obtain ⟨k, p, hp, hdevice⟩ := hpad
  cases hbuiltin : builtinPads.get? k with
  | some b =>
    obtain ⟨q, hq, hbq⟩ := h.builtin k b hbuiltin
    obtain rfl := Option.some.inj (hp.symm.trans hq)
    have hnone : p.device = none := hbq.device.trans (device_builtin hbuiltin)
    simp [hdevice] at hnone
  | none =>
    obtain ⟨-, other, hother⟩ := h.device k p hp hbuiltin
    obtain rfl := Option.some.inj (hdevice.symm.trans hother.source)
    exact hother.external

/-- The pads without a location sit in the slots of the built-in pads. -/
theorem WellSeated.count_builtin_le (h : r.WellSeated limit) :
    (r.pads.entries.countP fun e => !e.2.location?.isSome) ≤ builtinSlots := by
  have hnodup : ((r.pads.entries.filter fun e => !e.2.location?.isSome).map (·.1)).Nodup :=
    r.pads.nodup_keys.sublist (List.filter_sublist.map _)
  have hsub : (r.pads.entries.filter fun e => !e.2.location?.isSome).map (·.1) ⊆
      List.range builtinSlots := by
    intro k hk
    obtain ⟨e, he, rfl⟩ := List.mem_map.mp hk
    obtain ⟨he, hnone⟩ := List.mem_filter.mp he
    by_contra hslot
    have hfree : builtinPads.get? e.1 = none :=
      builtinPads_get?_eq_none_iff.mpr (by simpa [builtinSlots] using hslot)
    obtain ⟨-, device, hdevice⟩ := h.device e.1 e.2 (Table.get?_eq_some_iff_mem.mpr he) hfree
    simp [Pad.location?, hdevice.source] at hnone
  have hlength := (hnodup.subperm hsub).length_le
  rwa [List.length_map, List.length_range, ← List.countP_eq_length_filter] at hlength

theorem WellSeated.count_located_le (h : r.WellSeated limit) {known : List String}
    (hknown : ∀ device, r.HasPad device → device.locationId ∈ known) :
    (r.pads.entries.countP fun e => e.2.location?.isSome) ≤ known.length := by
  have hmem : ∀ e ∈ r.pads.entries, r.pad? e.1 = some e.2 :=
    fun e he => Table.get?_eq_some_iff_mem.mpr he
  have hnodup : (r.pads.entries.filterMap fun e => e.2.location?).Nodup := by
    refine List.pairwise_filterMap.mpr ?_
    refine r.pads.ascending.imp_of_mem fun {a b} ha hb hlt location hloc location' hloc' heq => ?_
    subst heq
    have hsame := h.unique a.1 b.1 a.2 b.2 location (hmem a ha) (hmem b hb) hloc hloc'
    simp [hsame] at hlt
  have hsub : (r.pads.entries.filterMap fun e => e.2.location?) ⊆ known := by
    intro location hlocation
    obtain ⟨e, he, hloc⟩ := List.mem_filterMap.mp hlocation
    obtain ⟨device, hdevice, rfl⟩ := Option.map_eq_some_iff.mp hloc
    exact hknown device ⟨e.1, e.2, hmem e he, hdevice⟩
  have hlength := (hnodup.subperm hsub).length_le
  rwa [List.length_filterMap_eq_countP] at hlength

/-- There are no more pads than built-in ones and locations of devices. -/
theorem WellSeated.size_le (h : r.WellSeated limit) {known : List String}
    (hknown : ∀ device, r.HasPad device → device.locationId ∈ known) :
    r.pads.size ≤ builtinSlots + known.length := by
  have hsum := List.length_eq_countP_add_countP (fun e : Nat × Pad => e.2.location?.isSome)
    (l := r.pads.entries)
  simp only [Bool.not_eq_true, Bool.decide_eq_false] at hsum
  have hbuiltin := h.count_builtin_le
  have hlocated := h.count_located_le hknown
  rw [Table.size]
  omega

end Router

namespace Hosted

variable {δ : Type} [DeviceDecoder δ]

/-! ### Entrances -/

/-- How a device has come to be attached after some turns: in the poll of one of them, and it has been
listed since. -/
structure Entrance (s : Hosted δ) where
  before : List Turn
  turn : Turn
  since : List Turn
  ok : turn.moment.view.refreshFails = false
  /-- The entries that brought a new device before this one did. -/
  ahead : List Listing
  entry : Listing
  behind : List Listing
  newcomers_eq : (s.run before).watcher.newcomers turn.moment.view = ahead ++ entry :: behind
  stays : ∀ t ∈ since, t.moment.view.refreshFails = false →
    entry.location ∈ Watcher.locations t.moment.view.listed

/-- The locations of the attached devices that are external. -/
def externals (s : Hosted δ) : List String :=
  (s.watcher.attached.filter fun _ a => !a.device.isInternal).keys

namespace Entrance

variable {s : Hosted δ}

def turns (e : s.Entrance) : List Turn := e.before ++ e.turn :: e.since

/-- The router just before the poll. -/
def asked (e : s.Entrance) : Router := (s.run e.before).router.run e.turn.cmds

/-- Everything just after the poll. -/
def entered (e : s.Entrance) : Hosted δ := (s.run e.before).turn e.turn

/-- A slot is left for it after those ahead of it. -/
def HasRoom (e : s.Entrance) : Prop :=
  e.asked.pads.size + (e.ahead.countP fun l => !l.device.isInternal) < e.asked.slotLimit

/-- The external devices that were attached before the poll or came with it are no more than the
slots that are not built in. -/
def Fits (e : s.Entrance) : Prop :=
  (s.run e.before).externals.length +
      ((s.run e.before).watcher.newcomers e.turn.moment.view).countP (fun l => !l.device.isInternal) ≤
    e.asked.slotLimit - builtinSlots

end Entrance

variable {s : Hosted δ} {t : Turn} {location : String}

theorem run_concat (s : Hosted δ) (turns : List Turn) (t : Turn) :
    s.run (turns ++ [t]) = (s.run turns).turn t :=
  List.foldl_concat ..

/-- A turn does not change a device that stays, and does not decide about its pad. -/
theorem stays_turn {a : Attached δ} (ha : s.watcher.attached.get? location = some a)
    (hstays : t.moment.view.refreshFails = false →
      location ∈ Watcher.locations t.moment.view.listed) :
    ((s.turn t).watcher.attached.get? location).map Attached.device = some a.device ∧
      ((s.turn t).router.Registered location ↔ s.router.Registered location) := by
  have hnew : ∀ device, .arrived device ∈ s.told t → device.locationId ≠ location := by
    rintro device harrived rfl
    obtain ⟨-, l, hl, rfl⟩ := Watcher.arrived_mem_step.mp harrived
    have hnone : s.watcher.attached.contains l.location = false := (Watcher.mem_newcomers.mp hl).1
    rw [Table.contains, show s.watcher.attached.get? l.location = some a from ha] at hnone
    simp at hnone
  have hkept : .removed location ∉ s.told t := by
    intro hremoved
    obtain ⟨hok, hgone⟩ := Watcher.removed_mem_step.mp hremoved
    exact (Watcher.mem_departed.mp hgone).2 (hstays hok)
  refine ⟨?_, ?_⟩
  · rw [turn_eq]
    cases hfails : t.moment.view.refreshFails with
    | true => rw [Watcher.step_of_refreshFails hfails, ha, Option.map_some]
    | false => exact Watcher.device_step_of_attached hfails ha (hstays hfails)
  · rw [router_turn]
    constructor
    · intro h
      by_contra hold
      refine Router.not_registered_run hold (fun cmd hcmd device harrived => ?_) h
      exact hnew device (mem_events_turn hcmd harrived (by simp))
    · intro h
      exact Router.registered_run h fun cmd hcmd hremoved =>
        hkept (mem_events_turn hcmd hremoved (by simp))

theorem stays_run {device : Device} {turns : List Turn}
    (hthere : (s.watcher.attached.get? location).map Attached.device = some device)
    (hstays : ∀ t ∈ turns, t.moment.view.refreshFails = false →
      location ∈ Watcher.locations t.moment.view.listed) :
    ((s.run turns).watcher.attached.get? location).map Attached.device = some device ∧
      ((s.run turns).router.Registered location ↔ s.router.Registered location) := by
  induction turns generalizing s with
  | nil => exact ⟨hthere, Iff.rfl⟩
  | cons t rest ih =>
    obtain ⟨a, ha, rfl⟩ := Option.map_eq_some_iff.mp hthere
    obtain ⟨hnext, hfirst⟩ := stays_turn ha (hstays t List.mem_cons_self)
    obtain ⟨hlast, hlater⟩ := ih hnext fun u hu => hstays u (List.mem_cons_of_mem _ hu)
    exact ⟨hlast, hlater.trans hfirst⟩

/-- Whatever is attached after some turns has come in one of them. -/
theorem exists_entrance (hempty : ∀ location, s.watcher.attached.contains location = false)
    (turns : List Turn) (hthere : (s.run turns).watcher.attached.contains location = true) :
    ∃ e : s.Entrance, e.turns = turns ∧ e.entry.location = location := by
  induction turns using List.reverseRecOn with
  | nil => simp [run, hempty] at hthere
  | append_singleton turns t ih =>
    rw [run_concat, turn_eq] at hthere
    cases hold : (s.run turns).watcher.attached.contains location with
    | true =>
      -- it has been there before this turn
      obtain ⟨e, rfl, rfl⟩ := ih hold
      have hstays : ∀ u ∈ e.since ++ [t], u.moment.view.refreshFails = false →
          e.entry.location ∈ Watcher.locations u.moment.view.listed := by
        intro u hu hok
        rcases List.mem_append.mp hu with hu | hu
        · exact e.stays u hu hok
        · obtain rfl := List.mem_singleton.mp hu
          exact (Watcher.contains_step hok).mp hthere
      exact ⟨{ e with since := e.since ++ [t], stays := hstays }, by simp [Entrance.turns], rfl⟩
    | false =>
      cases hfails : t.moment.view.refreshFails with
      | true =>
        rw [Watcher.step_of_refreshFails hfails] at hthere
        simp [hold] at hthere
      | false =>
        obtain ⟨l, hl, rfl⟩ :=
          Watcher.exists_newcomer hold ((Watcher.contains_step hfails).mp hthere)
        obtain ⟨ahead, behind, hsplit⟩ := List.append_of_mem hl
        exact ⟨⟨turns, t, [], hfails, ahead, l, behind, hsplit, by simp⟩, rfl, rfl⟩

/-! ### Asking for a slot -/

theorem wellSeated_run {limit : Nat} (h : s.router.WellSeated limit) (turns : List Turn) :
    (s.run turns).router.WellSeated limit := by
  induction turns generalizing s with
  | nil => exact h
  | cons t rest ih =>
    refine ih ?_
    rw [router_turn]
    exact Router.wellSeated_run h _

omit [DeviceDecoder δ] in
theorem hasPad_of_cmds {device : Device} (h : (s.router.run t.cmds).HasPad device) :
    s.router.HasPad device := by
  rcases Router.hasPad_of_run h with hold | ⟨cmd, hcmd, harrived⟩
  · exact hold
  · obtain ⟨there, reading, heq⟩ := t.quiet cmd hcmd _ harrived
    cases heq

namespace Entrance

variable (e : s.Entrance)

theorem entry_mem : e.entry ∈ (s.run e.before).watcher.newcomers e.turn.moment.view := by
  rw [e.newcomers_eq]
  exact List.mem_append_right _ List.mem_cons_self

/-- The device is still what it was when it came, and whether it has a pad was decided then. -/
theorem decided :
    ((s.run e.turns).watcher.attached.get? e.entry.location).map Attached.device =
        some e.entry.device ∧
      ((s.run e.turns).router.Registered e.entry.location ↔
        e.entered.router.Registered e.entry.location) := by
  have hturns : s.run e.turns = e.entered.run e.since := List.foldl_append
  have hthere : (e.entered.watcher.attached.get? e.entry.location).map Attached.device =
      some e.entry.device := by
    rw [entered, turn_eq]
    exact Watcher.device_step_of_newcomer e.ok e.entry_mem
  rw [hturns]
  exact stays_run hthere e.stays

theorem not_registered_asked (hbacked : (s.run e.before).Backed) :
    ¬ e.asked.Registered e.entry.location := by
  rintro ⟨device, hpad, hloc⟩
  obtain ⟨a, ha, -⟩ := Option.map_eq_some_iff.mp (hbacked device (hasPad_of_cmds hpad))
  have hnone := (Watcher.mem_newcomers.mp e.entry_mem).1
  rw [← hloc, Table.contains, ha] at hnone
  simp at hnone

theorem location_ne_of_mem_ahead {l : Listing} (hl : l ∈ e.ahead) :
    l.location ≠ e.entry.location := by
  have hnodup := nodup_firstEntries (s.run e.before).watcher.attached.keys
    (e.turn.moment.view.listed.filter Listing.accepted)
  rw [← Watcher.newcomers, e.newcomers_eq, List.map_append, List.map_cons] at hnodup
  exact (List.nodup_append.mp hnodup).2.2 _ (List.mem_map_of_mem hl) _ List.mem_cons_self

/-- The router when it is the turn of the device: those ahead of it have been told. -/
def atDoor : Router := (e.asked.handleAll ((e.ahead.map Listing.device).map .arrived)).state

theorem not_registered_atDoor (hbacked : (s.run e.before).Backed) :
    ¬ e.atDoor.Registered e.entry.location := by
  rw [atDoor, ← Router.run_map_handle]
  refine Router.not_registered_run (e.not_registered_asked hbacked) ?_
  intro cmd hcmd device harrived
  obtain ⟨event, hevent, rfl⟩ := List.mem_map.mp hcmd
  obtain rfl := List.mem_singleton.mp harrived
  obtain ⟨l, hl, rfl⟩ : ∃ l ∈ e.ahead, l.device = device := by simpa using hevent
  exact e.location_ne_of_mem_ahead hl

theorem size_atDoor_lt (hroom : e.HasRoom) : e.atDoor.pads.size < e.atDoor.slotLimit := by
  have hsize := e.asked.size_handleAll_arrived (e.ahead.map Listing.device)
  have hlimit : e.atDoor.slotLimit = e.asked.slotLimit := by
    rw [atDoor, ← Router.run_map_handle, Router.slotLimit_run]
  rw [List.countP_map] at hsize
  rw [hlimit]
  exact Nat.lt_of_le_of_lt hsize hroom

/-- After it, other arrivals are told, then removals and readings. -/
theorem exists_entered : ∃ rest : List HidEvent, e.entered.router =
    (e.atDoor.arrive e.entry.device).state.run (rest.map .handle) ∧
      .removed e.entry.location ∉ rest := by
  obtain ⟨rest, htold⟩ : ∃ rest, (s.run e.before).told e.turn =
      (e.ahead.map Listing.device).map .arrived ++ .arrived e.entry.device :: rest := by
    rw [told, Watcher.result_step e.ok]
    simp only [e.newcomers_eq, List.map_append, List.map_cons, List.map_map, List.append_assoc,
      List.cons_append]
    exact ⟨_, rfl⟩
  refine ⟨rest, ?_, fun hremoved => ?_⟩
  · rw [entered, router_turn, htold, List.map_append, List.map_cons, Router.run_append,
      Router.run_append, Router.run_map_handle, Router.run_cons]
    rfl
  · have hmem : .removed e.entry.location ∈ (s.run e.before).told e.turn := by
      rw [htold]
      exact List.mem_append_right _ (List.mem_cons_of_mem _ hremoved)
    obtain ⟨hthere, -⟩ := Watcher.mem_departed.mp (Watcher.removed_mem_step.mp hmem).2
    rw [(Watcher.mem_newcomers.mp e.entry_mem).1] at hthere
    cases hthere

theorem registered_of_hasRoom (hbacked : (s.run e.before).Backed)
    (hexternal : e.entry.device.isInternal = false) (hroom : e.HasRoom) :
    e.entered.router.Registered e.entry.location := by
  have hpad := Router.hasPad_arrive hexternal (e.not_registered_atDoor hbacked)
    (e.size_atDoor_lt hroom)
  obtain ⟨rest, hentered, hkept⟩ := e.exists_entered
  rw [hentered]
  refine ⟨e.entry.device, Router.hasPad_run hpad fun cmd hcmd hremoved => ?_, rfl⟩
  obtain ⟨event, hevent, rfl⟩ := List.mem_map.mp hcmd
  obtain rfl := List.mem_singleton.mp hremoved
  exact hkept hevent

theorem hasRoom_of_fits {limit : Nat} (hbacked : (s.run e.before).Backed)
    (hseated : e.asked.WellSeated limit) (hexternal : e.entry.device.isInternal = false)
    (hfits : e.Fits) : e.HasRoom := by
  have hsize : e.asked.pads.size ≤ builtinSlots + (s.run e.before).externals.length := by
    refine hseated.size_le fun device hpad => ?_
    obtain ⟨a, ha, rfl⟩ := Option.map_eq_some_iff.mp (hbacked device (hasPad_of_cmds hpad))
    have houtside := hseated.external hpad
    refine Table.mem_keys_iff.mpr ⟨a, ?_⟩
    rw [Table.get?_filter, ha, Option.filter_some, houtside]
    rfl
  have hcount : ((s.run e.before).watcher.newcomers e.turn.moment.view).countP
      (fun l => !l.device.isInternal) = (e.ahead.countP fun l => !l.device.isInternal) +
        ((e.behind.countP fun l => !l.device.isInternal) + 1) := by
    rw [e.newcomers_eq, List.countP_append, List.countP_cons, hexternal]
    rfl
  unfold Fits at hfits
  unfold HasRoom
  omega

end Entrance

/-- **Room decides.** Take a router whose pads are all built in, and any run in which devices come and
go by the polls of one host. After each poll that succeeds, whatever is listed has come in one of the
polls and has been there since, with the data of then. If it is external, nothing after that poll has
decided whether it has a pad. It has one if a slot was left for it; and a slot was left if there were
no more external devices, those attached before and those that came with it, than slots that are not
built in. -/
theorem registered_where_room (c : Config) (register : Register) (past : List Router.Command)
    (host : Host) (hvacant : ((Router.start c register).state.run past).Vacant)
    (turns : List Turn) (t : Turn) (hok : t.moment.view.refreshFails = false) :
    let s : Hosted δ := ⟨(Router.start c register).state.run past, {}, host⟩
    let now := s.run (turns ++ [t])
    (∀ location ∈ Watcher.locations t.moment.view.listed,
      ∃ e : s.Entrance, e.turns = turns ++ [t] ∧ e.entry.location = location) ∧
    ∀ e : s.Entrance, e.turns = turns ++ [t] → e.entry.device.isInternal = false →
      (now.watcher.attached.get? e.entry.location).map Attached.device = some e.entry.device ∧
      (now.router.slotOf? e.entry.location).isSome =
        (e.entered.router.slotOf? e.entry.location).isSome ∧
      (e.HasRoom → (now.router.slotOf? e.entry.location).isSome = true) ∧
      (e.Fits → e.HasRoom) := by
  intro s now
  refine ⟨fun location hlisted => exists_entrance (fun _ => rfl) _ ?_, fun e hturns hexternal => ?_⟩
  · rw [run_concat, turn_eq]
    exact (Watcher.contains_step hok).mpr hlisted
  · have hbacked : (s.run e.before).Backed := backed_run (backed_of_vacant hvacant) e.before
    have hseated : e.asked.WellSeated (max c.slotLimit.toNat builtinSlots) :=
      Router.wellSeated_run (wellSeated_run
        (Router.wellSeated_run (Router.wellSeated_start c register) past) e.before) e.turn.cmds
    obtain ⟨hattached, hdecided⟩ := e.decided
    rw [hturns] at hattached hdecided
    refine ⟨hattached, ?_, fun hroom => ?_, e.hasRoom_of_fits hbacked hseated hexternal⟩
    · rw [Bool.eq_iff_iff, ← Router.registered_iff, ← Router.registered_iff]
      exact hdecided
    · exact Router.registered_iff.mp (hdecided.mpr (e.registered_of_hasRoom hbacked hexternal hroom))

/-- There are four slots, so that one stick can have a pad. -/
def fourSlots : Hosted ReportDecoder :=
  ⟨(Router.start { slotLimit := 4 } .shipped).state.run [], {}, { decodes := false }⟩

def loneStick : fourSlots.Entrance where
  before := []
  turn := .sticks [[0x70]]
  since := []
  ok := rfl
  ahead := []
  entry := .stick [0x70]
  behind := []
  newcomers_eq := by decide +kernel
  stays := by simp

theorem lone_stick_has_pad :
    fourSlots.router.Vacant ∧ (Turn.sticks [[0x70]]).moment.view.refreshFails = false ∧
      loneStick.Fits ∧
      ((fourSlots.run [.sticks [[0x70]]]).router.slotOf? (Listing.stick [0x70]).location).isSome =
        true := by
  have hvacant : fourSlots.router.Vacant := Router.vacant_start { slotLimit := 4 } .shipped
  have hfits : loneStick.Fits := by
    unfold Entrance.Fits
    decide +kernel
  obtain ⟨-, -, hroom, hleft⟩ := (registered_where_room { slotLimit := 4 } .shipped []
    { decodes := false } hvacant [] (.sticks [[0x70]]) rfl).2 loneStick rfl (by decide +kernel)
  exact ⟨hvacant, rfl, hfits, hroom (hleft hfits)⟩

/-! ### A full table -/

/-- The locations of the external devices in a list, each once. -/
def externalLocations (listed : List Listing) : List String :=
  ((listed.filter fun l => l.accepted && !l.device.isInternal).map Listing.location).eraseDups

/-- If the external devices in a list are no more than the slots that are not built in, they all have
pads. -/
def RegistersListed (r : Router) (listed : List Listing) : Prop :=
  (externalLocations listed).length ≤ r.slotLimit - builtinSlots →
    ∀ location ∈ externalLocations listed, (r.slotOf? location).isSome = true

/-- Stick `q` has come while stick `p` had the last slot, and stays without a pad when `p` is gone. -/
theorem latecomer_stays_without_pad :
    fourSlots.router.Vacant ∧
      ¬ RegistersListed
        (fourSlots.run [.sticks [[0x70]], .sticks [[0x70], [0x71]], .sticks [[0x71]]]).router
        (Moment.sticks [[0x71]]).view.listed := by
  refine ⟨Router.vacant_start { slotLimit := 4 } .shipped, fun h => ?_⟩
  have hregistered := h (by decide +kernel) "q" (by decide +kernel)
  exact absurd hregistered (by decide +kernel)

end Hosted

end PadRouter

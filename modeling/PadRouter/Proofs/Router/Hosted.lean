import PadRouter.Proofs.Router.Devices
import PadRouter.Proofs.Watcher.Poll
import PadRouter.Router.EventQueue

/-!
# A router that is fed by polls

The watcher knows what is attached and the router knows what has a pad, and neither asks the other.
The events of the polls keep them together.

* `Hosted`, `Turn`, `Hosted.turn`, `Hosted.run` — a router with the host that feeds it, and its
  runs: any commands that bring no device and take none away, then a poll, and so on.
* `Hosted.Backed` — whatever has a pad is attached, with the same data.
* `Hosted.backed_turn`, `Hosted.backed_run` — a turn, and any run, keeps it.
* `Hosted.pads_are_attached` — no pad outlives its device.
-/

namespace PadRouter

namespace Router

variable {δ : Type} [DeviceDecoder δ] {t : Traversal} {w : Watcher δ} {host : Host}

theorem pumpHost_of_ok {polled : Outcome (Watcher δ × Host) (List HidEvent)} (r : Router)
    (h : w.pollIn t host = .ok polled) :
    ∃ o, r.pumpHost t w host = .ok o ∧
      o.state = ((r.handleAll polled.result).state, polled.state) := by
  rw [pumpHost, h]
  exact ⟨_, rfl, rfl⟩

theorem pumpHost_of_error {e : HostError} (r : Router) (h : w.pollIn t host = .error e) :
    r.pumpHost t w host = .error e := by
  rw [pumpHost, h]
  rfl

end Router

/-- A router, and the host that feeds it. -/
structure Hosted (δ : Type) where
  router : Router
  watcher : Watcher δ := {}
  host : Host

/-- Some commands to a router, then a poll of the host. -/
structure Turn where
  cmds : List Router.Command := []
  moment : Moment
  /-- Devices come and go by polls alone. -/
  quiet : ∀ cmd ∈ cmds, ∀ e ∈ cmd.events, ∃ location reading, e = .value location reading

def Turn.sticks (paths : List (List UInt8)) : Turn := ⟨[], .sticks paths, by simp⟩

namespace Hosted

variable {δ : Type} [DeviceDecoder δ]

/-- Polls the host at a moment and hands the events to the router. If the host cannot be polled it is
just later. -/
def pump (s : Hosted δ) (m : Moment) : Hosted δ :=
  let host := s.host.later m.view m.sent
  match s.router.pumpHost m.traversal s.watcher host with
  | .ok o => ⟨o.state.1, o.state.2.1, o.state.2.2⟩
  | .error _ => { s with host := host }

def turn (s : Hosted δ) (t : Turn) : Hosted δ :=
  pump { s with router := s.router.run t.cmds } t.moment

def run (s : Hosted δ) (turns : List Turn) : Hosted δ := turns.foldl turn s

/-- What the poll of a turn tells. -/
def told (s : Hosted δ) (t : Turn) : List HidEvent :=
  (Watcher.step (s.watcher, s.host) t.moment).result

variable {s : Hosted δ} {t : Turn} {device : Device} {location : String}

/-! ### One turn -/

/-- The router gets what is told, whether or not the host can be polled. -/
theorem turn_eq (s : Hosted δ) (t : Turn) :
    s.turn t =
      { router := ((s.router.run t.cmds).handleAll (s.told t)).state
        watcher := (Watcher.step (s.watcher, s.host) t.moment).state.1
        host := (Watcher.step (s.watcher, s.host) t.moment).state.2 } := by
  cases hpoll : s.watcher.pollIn t.moment.traversal (s.host.later t.moment.view t.moment.sent) with
  | ok polled =>
    obtain ⟨o, hpumped, hstate⟩ := (s.router.run t.cmds).pumpHost_of_ok hpoll
    simp only [turn, pump, told, Watcher.step, hpoll, hpumped, hstate]
  | error e =>
    have hpumped := (s.router.run t.cmds).pumpHost_of_error hpoll
    simp only [turn, pump, told, Watcher.step, hpoll, hpumped]
    rfl

theorem router_turn (s : Hosted δ) (t : Turn) :
    (s.turn t).router = s.router.run (t.cmds ++ (s.told t).map .handle) := by
  rw [turn_eq, Router.run_append, Router.run_map_handle]

/-- The only events of a turn that bring devices or take them away are those of the poll. -/
theorem mem_events_turn {cmd : Router.Command} {e : HidEvent}
    (hcmd : cmd ∈ t.cmds ++ (s.told t).map .handle) (he : e ∈ cmd.events)
    (hpresence : ∀ location reading, e ≠ .value location reading) : e ∈ s.told t := by
  rcases List.mem_append.mp hcmd with hcmd | hcmd
  · obtain ⟨location, reading, rfl⟩ := t.quiet cmd hcmd e he
    exact absurd rfl (hpresence location reading)
  · obtain ⟨e', he', rfl⟩ := List.mem_map.mp hcmd
    rwa [List.mem_singleton.mp he]

theorem hasPad_of_turn (h : (s.turn t).router.HasPad device) :
    s.router.HasPad device ∨ .arrived device ∈ s.told t := by
  rw [router_turn] at h
  rcases Router.hasPad_of_run h with hold | ⟨cmd, hcmd, harrived⟩
  · exact .inl hold
  · exact .inr (mem_events_turn hcmd harrived (by simp))

theorem not_registered_of_departed (hok : t.moment.view.refreshFails = false)
    (hgone : location ∈ s.watcher.departed t.moment.view) :
    ¬ (s.turn t).router.Registered location := by
  have htold := Watcher.result_step (s := (s.watcher, s.host)) hok
  obtain ⟨before, after, hsplit⟩ :=
    List.append_of_mem ((t.moment.traversal.perm _).mem_iff.mpr hgone)
  rw [turn_eq, told, htold, hsplit, List.map_append, List.map_cons, ← List.append_assoc,
    List.append_assoc, List.cons_append]
  refine Router.not_registered_handleAll fun device harrived => ?_
  -- behind the removal come other removals and readings
  rcases List.mem_append.mp harrived with hmem | hmem
  · obtain ⟨gone, -, heq⟩ := List.mem_map.mp hmem
    cases heq
  · obtain ⟨there, reading, heq, -⟩ := (Watcher.readAll_spec ..).2 _ hmem
    cases heq

/-! ### The watcher behind the router -/

/-- Whatever has a pad is attached, with the same data. -/
def Backed (s : Hosted δ) : Prop :=
  ∀ device, s.router.HasPad device →
    (s.watcher.attached.get? device.locationId).map Attached.device = some device

theorem backed_turn (h : s.Backed) (t : Turn) : (s.turn t).Backed := by
  intro device hpad
  cases hfails : t.moment.view.refreshFails with
  | true =>
    have htold : s.told t = [] := by rw [told, Watcher.step_of_refreshFails hfails]
    rcases hasPad_of_turn hpad with hold | harrived
    · rw [turn_eq, Watcher.step_of_refreshFails hfails]
      exact h device hold
    · simp [htold] at harrived
  | false =>
    rcases hasPad_of_turn hpad with hold | harrived
    · obtain ⟨a, ha, rfl⟩ := Option.map_eq_some_iff.mp (h device hold)
      have hlisted : a.device.locationId ∈ Watcher.locations t.moment.view.listed := by
        by_contra hunlisted
        have hgone := Watcher.mem_departed.mpr ⟨by rw [Table.contains, ha]; rfl, hunlisted⟩
        exact not_registered_of_departed hfails hgone ⟨a.device, hpad, rfl⟩
      rw [turn_eq]
      exact Watcher.device_step_of_attached hfails ha hlisted
    · obtain ⟨-, l, hl, rfl⟩ := Watcher.arrived_mem_step.mp harrived
      rw [turn_eq]
      exact Watcher.device_step_of_newcomer hfails hl

theorem backed_run (h : s.Backed) (turns : List Turn) : (s.run turns).Backed := by
  induction turns generalizing s with
  | nil => exact h
  | cons t rest ih => exact ih (backed_turn h t)

omit [DeviceDecoder δ] in
theorem backed_of_vacant (h : s.router.Vacant) : s.Backed :=
  fun device hpad => absurd hpad (h device)

/-- **No pad outlives its device.** Take a router without pads of devices, and any run in which
devices come and go by the polls of one host. Another poll either succeeds, and then whatever has a
pad is in the list and attached, with the data that the watcher has of it; or it fails, and then the
attached devices stay as they are and the router is what the commands before the poll have made of
it. -/
theorem pads_are_attached (r : Router) (host : Host) (hvacant : r.Vacant) (turns : List Turn)
    (t : Turn) :
    let s := (⟨r, {}, host⟩ : Hosted δ).run turns
    let asked := s.router.run t.cmds
    let pumped := asked.pumpHost t.moment.traversal s.watcher
      (s.host.later t.moment.view t.moment.sent)
    (t.moment.view.refreshFails = false →
      (∃ o, pumped = .ok o ∧ o.state = ((s.turn t).router, (s.turn t).watcher, (s.turn t).host)) ∧
      ∀ k p device, (s.turn t).router.pad? k = some p → p.device = some device →
        ((s.turn t).watcher.attached.get? device.locationId).map Attached.device = some device ∧
        device.locationId ∈ Watcher.locations t.moment.view.listed) ∧
    (t.moment.view.refreshFails = true →
      pumped = .error .refresh ∧ (s.turn t).watcher = s.watcher ∧ (s.turn t).router = asked) := by
  intro s asked pumped
  refine ⟨fun hok => ⟨?_, fun k p device hp hdevice => ?_⟩, fun hfails => ?_⟩
  · obtain ⟨polled, hpoll, -, -⟩ := Watcher.exists_pollIn s.watcher t.moment.traversal
      (h := s.host.later t.moment.view t.moment.sent) hok
    obtain ⟨o, hpumped, hstate⟩ := asked.pumpHost_of_ok hpoll
    refine ⟨o, hpumped, ?_⟩
    rw [hstate, turn_eq, told, Watcher.step, hpoll]
  · have hbacked := backed_turn (backed_run (backed_of_vacant hvacant) turns) t device
      ⟨k, p, hp, hdevice⟩
    refine ⟨hbacked, ?_⟩
    obtain ⟨a, ha, -⟩ := Option.map_eq_some_iff.mp hbacked
    rw [turn_eq] at ha
    exact (Watcher.contains_step hok).mp (by rw [Table.contains, ha]; rfl)
  · rw [turn_eq, told, Watcher.step_of_refreshFails hfails]
    exact ⟨asked.pumpHost_of_error (Watcher.pollIn_of_refreshFails hfails), rfl, rfl⟩

/-- Sticks `p` and `q` are plugged in, then `p` is taken out. Only `q` has a pad, and it is attached. -/
theorem stick_leaves_no_pad :
    let s := (⟨.default, {}, { decodes := false }⟩ : Hosted ReportDecoder).run
      [.sticks [[0x70], [0x71]]]
    let t : Turn := .sticks [[0x71]]
    Router.default.Vacant ∧ t.moment.view.refreshFails = false ∧
      s.router.slotOf? "p" = some 3 ∧ (s.turn t).router.slotOf? "p" = none ∧
      ∃ p, (s.turn t).router.pad? 4 = some p ∧ p.device = some (Listing.stick [0x71]).device ∧
        ((s.turn t).watcher.attached.get? (Listing.stick [0x71]).device.locationId).map
          Attached.device = some (Listing.stick [0x71]).device := by
  intro s t
  have hvacant : Router.default.Vacant := Router.vacant_start {} .shipped
  have hpad : ((s.turn t).router.pad? 4).bind Pad.device = some (Listing.stick [0x71]).device := by
    decide +kernel
  obtain ⟨p, hp, hdevice⟩ := Option.bind_eq_some_iff.mp hpad
  have hattached := pads_are_attached (δ := ReportDecoder) .default { decodes := false } hvacant
    [.sticks [[0x70], [0x71]]] t
  exact ⟨hvacant, rfl, by decide +kernel, by decide +kernel, p, hp, hdevice,
    ((hattached.1 rfl).2 4 p _ hp hdevice).1⟩

end Hosted

end PadRouter

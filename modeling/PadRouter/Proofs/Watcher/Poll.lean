import Mathlib.Data.List.Basic
import PadRouter.Watcher

/-!
# One poll, stage by stage

What a poll of the host does to the attached devices, and which events it tells. The list of
devices is gone through once, then the devices that are gone are let go, then the others are read.

* `firstEntries` — the entries of a list that bring a new location, each location once.
* `Watcher.newcomers`, `Watcher.departed`, `Watcher.settled` — who comes, who goes, and who is there
  after that.
* `Watcher.get?_settled` — the device at each location after arrivals and removals.
* `Watcher.readAll_spec` — reading changes nothing but the readers, and tells readings only.
* `Watcher.exists_pollIn` — a poll that succeeds, put together from its stages.
* `Moment`, `Watcher.step`, `Watcher.watch` — runs of polls, with anything happening in between.
-/

namespace PadRouter

/-! ### The first entries of a list -/

/-- The entries whose locations are not known, each location once. -/
def firstEntries (known : List String) : List Listing → List Listing
  | [] => []
  | l :: rest =>
    if l.location ∈ known then firstEntries known rest
    else l :: firstEntries (l.location :: known) rest

section FirstEntries

variable {known : List String} {listed : List Listing} {l : Listing}

theorem mem_firstEntries :
    l ∈ firstEntries known listed ↔
      l.location ∉ known ∧ listed.find? (fun k => k.location = l.location) = some l := by
  induction listed generalizing known with
  | nil => simp [firstEntries]
  | cons first rest ih =>
    rw [firstEntries]
    by_cases hsame : first.location = l.location
    · -- the first entry of this location is the head
      rw [List.find?_cons_of_pos (by simpa using hsame)]
      split
      next hknown =>
        rw [ih]
        simp [← hsame, hknown]
      next hnew =>
        rw [List.mem_cons, ih]
        constructor
        · rintro (rfl | ⟨hother, -⟩)
          · exact ⟨hnew, rfl⟩
          · simp [hsame] at hother
        · rintro ⟨-, hfirst⟩
          exact .inl (Option.some.inj hfirst).symm
    · rw [List.find?_cons_of_neg (by simpa using hsame)]
      split
      next => exact ih
      next =>
        have hne : l ≠ first := by
          rintro rfl
          exact hsame rfl
        simp [ih, hne, Ne.symm hsame]

/-- The first entries stand in the order of their locations in the list. -/
theorem pairwise_firstEntries (known : List String) (listed : List Listing) :
    (firstEntries known listed).Pairwise fun a b =>
      (listed.map Listing.location).idxOf a.location <
        (listed.map Listing.location).idxOf b.location := by
  induction listed generalizing known with
  | nil => exact .nil
  | cons first rest ih =>
    -- the locations behind the head come one place later
    have hbehind : ∀ known', first.location ∈ known' →
        (firstEntries known' rest).Pairwise fun a b =>
          ((first :: rest).map Listing.location).idxOf a.location <
            ((first :: rest).map Listing.location).idxOf b.location := by
      intro known' hfirst
      refine (ih known').imp_of_mem fun {a b} ha hb hlt => ?_
      have hne : ∀ l ∈ firstEntries known' rest, first.location ≠ l.location := by
        intro l hl heq
        exact (mem_firstEntries.mp hl).1 (heq ▸ hfirst)
      rw [List.map_cons, List.idxOf_cons_ne _ (hne a ha), List.idxOf_cons_ne _ (hne b hb)]
      omega
    rw [firstEntries]
    split
    next hknown => exact hbehind known hknown
    next =>
      refine List.pairwise_cons.mpr ⟨fun l hl => ?_, hbehind _ List.mem_cons_self⟩
      have hne : first.location ≠ l.location := by
        intro heq
        exact (mem_firstEntries.mp hl).1 (heq ▸ List.mem_cons_self)
      rw [List.map_cons, List.idxOf_cons_self, List.idxOf_cons_ne _ hne]
      omega

theorem nodup_firstEntries (known : List String) (listed : List Listing) :
    ((firstEntries known listed).map Listing.location).Nodup :=
  List.pairwise_map.mpr <| (pairwise_firstEntries known listed).imp fun hlt heq => by
    rw [heq] at hlt
    omega

/-- Only which locations are known counts. -/
theorem firstEntries_congr {known' : List String} (h : ∀ L, L ∈ known ↔ L ∈ known') :
    firstEntries known listed = firstEntries known' listed := by
  induction listed generalizing known known' with
  | nil => rfl
  | cons first rest ih =>
    rw [firstEntries, firstEntries]
    by_cases hknown : first.location ∈ known
    · rw [if_pos hknown, if_pos ((h _).mp hknown), ih h]
    · rw [if_neg hknown, if_neg fun hmem => hknown ((h _).mpr hmem)]
      congr 1
      exact ih fun L => by simp [h L]

end FirstEntries

/-- What the host shows when it is polled, what its devices have sent since the poll before, and how
the attached devices are gone through. -/
structure Moment where
  view : HostView
  sent : Sent := []
  traversal : Traversal := .ascending

def Listing.stick (path : List UInt8) : Listing where
  path := path
  vendor := 1
  product := 2
  usagePage := Page.desktop
  usage := Usage.joystick
  bus := .usb

/-- Sticks are listed, and nobody can tell what they say. -/
def Moment.sticks (paths : List (List UInt8)) : Moment where
  view := { decodes := false, listed := paths.map .stick }

namespace Watcher

variable {δ : Type} {w : Watcher δ} {v : HostView} {h : Host} {t : Traversal} {location : String}

/-! ### Who comes and who goes -/

/-- The entries of the list that bring a new device. -/
def newcomers (w : Watcher δ) (v : HostView) : List Listing :=
  firstEntries w.attached.keys (v.listed.filter Listing.accepted)

/-- An entry brings a new device if nothing is attached at its location and it is the first one for
this location that counts as game input. -/
theorem mem_newcomers {l : Listing} :
    l ∈ w.newcomers v ↔ w.attached.contains l.location = false ∧
      (v.listed.filter Listing.accepted).find? (fun k => k.location = l.location) = some l := by
  rw [newcomers, mem_firstEntries, Table.mem_keys_iff_contains, Bool.not_eq_true]

theorem location_mem_of_newcomer {l : Listing} (hl : l ∈ w.newcomers v) :
    l.location ∈ locations v.listed :=
  List.mem_map.mpr ⟨l, List.mem_of_find?_eq_some (mem_newcomers.mp hl).2, rfl⟩

theorem exists_newcomer (hnew : w.attached.contains location = false)
    (hlisted : location ∈ locations v.listed) : ∃ l ∈ w.newcomers v, l.location = location := by
  obtain ⟨l, hl, hloc⟩ := List.mem_map.mp hlisted
  obtain ⟨first, hfirst⟩ := Option.isSome_iff_exists.mp
    (List.find?_isSome.mpr ⟨l, hl, by simpa using hloc⟩ :
      ((v.listed.filter Listing.accepted).find? fun k => k.location = location).isSome)
  have hloc : first.location = location := by simpa using List.find?_some hfirst
  exact ⟨first, mem_newcomers.mpr ⟨hloc ▸ hnew, by rw [hloc]; exact hfirst⟩, hloc⟩

/-- The locations that are not in the list any more. -/
def departed (w : Watcher δ) (v : HostView) : List String :=
  (w.attached.filter fun location _ => !(locations v.listed).contains location).keys

theorem mem_departed :
    location ∈ w.departed v ↔
      w.attached.contains location = true ∧ location ∉ locations v.listed := by
  rw [departed, Table.mem_keys_iff_contains, Table.contains, Table.get?_filter_key, Table.contains]
  by_cases hlisted : location ∈ locations v.listed <;> simp [hlisted]

variable [DeviceDecoder δ]

/-! ### Arrivals -/

theorem get?_attach (v : HostView) (w : Watcher δ) (l : Listing) (location : String) :
    (attach v w l).state.attached.get? location = (w.attached.get? location).or
      (if l.location = location then some ⟨l.device, (openReader v l).1⟩ else none) := by
  unfold attach
  split
  next hattached =>
    obtain ⟨a, ha⟩ := Option.isSome_iff_exists.mp hattached
    by_cases hloc : l.location = location
    · rw [← hloc, ha, Option.some_or]
    · rw [if_neg hloc, Option.or_none]
  next hnew =>
    have hnone : w.attached.get? l.location = none := by simpa [Table.contains] using hnew
    rw [Table.get?_insert]
    by_cases hloc : l.location = location
    · simp [← hloc, hnone]
    · have hcompare : compare location l.location ≠ .eq :=
        fun heq => hloc (Std.LawfulEqCmp.eq_of_compare heq).symm
      rw [if_neg hcompare, if_neg hloc, Option.or_none]

theorem get?_attachAll (v : HostView) (w : Watcher δ) (listed : List Listing) (location : String) :
    (Outcome.collect (attach v) w listed).state.attached.get? location =
      (w.attached.get? location).or
        ((listed.find? fun l => l.location = location).map fun l =>
          ⟨l.device, (openReader v l).1⟩) := by
  induction listed generalizing w with
  | nil => simp [Outcome.collect]
  | cons l rest ih =>
    rw [Outcome.state_collect_cons, ih, get?_attach, Option.or_assoc, List.find?_cons]
    by_cases hloc : l.location = location <;> simp [hloc]

theorem result_attachAll (v : HostView) (w : Watcher δ) (listed : List Listing) :
    (Outcome.collect (attach v) w listed).result =
      (firstEntries w.attached.keys listed).map fun l => .arrived l.device := by
  induction listed generalizing w with
  | nil => rfl
  | cons l rest ih =>
    rw [Outcome.result_collect_cons, ih, firstEntries]
    by_cases hattached : w.attached.contains l.location = true
    · rw [if_pos (Table.mem_keys_iff_contains.mpr hattached)]
      simp [attach, hattached]
    · rw [if_neg fun hmem => hattached (Table.mem_keys_iff_contains.mp hmem)]
      have hkeys : ∀ L, L ∈ (attach v w l).state.attached.keys ↔ L ∈ l.location :: w.attached.keys := by
        intro L
        rw [Table.mem_keys_iff_contains, Table.contains, get?_attach, List.mem_cons,
          Table.mem_keys_iff_contains, Table.contains]
        by_cases hloc : l.location = L
        · simp [hloc]
        · simp [hloc, Ne.symm hloc]
      rw [firstEntries_congr hkeys]
      simp [attach, hattached]

/-! ### Removals -/

/-- The attached devices after arrivals and removals. -/
def settled (w : Watcher δ) (v : HostView) : Watcher δ :=
  (detach .ascending v.listed
    (Outcome.collect (attach v) w (v.listed.filter Listing.accepted)).state).1

/-- Those that have just arrived are in the list, so that none of them goes. -/
theorem keys_gone (w : Watcher δ) (v : HostView) :
    ((Outcome.collect (attach v) w (v.listed.filter Listing.accepted)).state.attached.filter
      fun location _ => !(locations v.listed).contains location).keys = w.departed v := by
  unfold departed
  congr 1
  refine Table.ext_get? fun L => ?_
  rw [Table.get?_filter_key, Table.get?_filter_key, get?_attachAll]
  by_cases hlisted : L ∈ locations v.listed
  · simp [hlisted]
  · have hnone : (v.listed.filter Listing.accepted).find? (fun l => l.location = L) = none := by
      rw [List.find?_eq_none]
      intro l hl hloc
      exact hlisted (List.mem_map.mpr ⟨l, hl, by simpa using hloc⟩)
    rw [hnone, Option.map_none, Option.or_none]

/-- The device at each location after arrivals and removals: the one that was there, or else that of
the first entry, and none where nothing is listed. -/
theorem get?_settled (w : Watcher δ) (v : HostView) (location : String) :
    (w.settled v).attached.get? location =
      if location ∈ locations v.listed then
        (w.attached.get? location).or
          (((v.listed.filter Listing.accepted).find? fun l => l.location = location).map fun l =>
            ⟨l.device, (openReader v l).1⟩)
      else none := by
  rw [settled, detach, Table.get?_filter_key, get?_attachAll]
  simp only [List.contains_iff_mem]

theorem contains_settled :
    (w.settled v).attached.contains location = true ↔ location ∈ locations v.listed := by
  rw [Table.contains, get?_settled]
  split
  next hlisted =>
    obtain ⟨l, hl, hloc⟩ := List.mem_map.mp hlisted
    have hfound : ((v.listed.filter Listing.accepted).find? fun k => k.location = location).isSome :=
      List.find?_isSome.mpr ⟨l, hl, by simpa using hloc⟩
    rw [Option.isSome_or, Option.isSome_map, hfound, Bool.or_true]
    exact iff_of_true rfl hlisted
  next hlisted => simp [hlisted]

theorem get?_settled_of_attached {a : Attached δ} (ha : w.attached.get? location = some a)
    (hlisted : location ∈ locations v.listed) :
    (w.settled v).attached.get? location = some a := by
  rw [get?_settled, if_pos hlisted, ha, Option.some_or]

theorem get?_settled_of_newcomer {l : Listing} (hl : l ∈ w.newcomers v) :
    (w.settled v).attached.get? l.location = some ⟨l.device, (openReader v l).1⟩ := by
  obtain ⟨hnew, hfirst⟩ := mem_newcomers.mp hl
  have hlisted := location_mem_of_newcomer hl
  have hnone : w.attached.get? l.location = none := by simpa [Table.contains] using hnew
  rw [get?_settled, if_pos hlisted, hnone, Option.none_or, hfirst, Option.map_some]

/-! ### Readings -/

/-- The same devices are attached at the same locations. -/
def SameDevices (w w' : Watcher δ) : Prop :=
  ∀ location, (w'.attached.get? location).map Attached.device =
    (w.attached.get? location).map Attached.device

omit [DeviceDecoder δ] in
theorem SameDevices.contains_eq {w' : Watcher δ} (hw : w.SameDevices w') (location : String) :
    w'.attached.contains location = w.attached.contains location := by
  rw [Table.contains, Table.contains, ← Option.isSome_map (f := Attached.device), hw,
    Option.isSome_map]

theorem sameDevices_readAt (s : Watcher δ × Host) (location : String) :
    s.1.SameDevices (readAt s location).state.1 := by
  intro L
  unfold readAt
  split
  next device reader hget =>
    rw [Table.get?_insert]
    split
    next heq =>
      obtain rfl := Std.LawfulEqCmp.eq_of_compare heq
      rw [hget]
      rfl
    next => rfl
  next => rfl

theorem mem_result_readAt {s : Watcher δ × Host} {e : HidEvent}
    (he : e ∈ (readAt s location).result) :
    s.1.attached.contains location = true ∧ ∃ reading, e = .value location reading := by
  unfold readAt at he
  split at he
  next device reader hget =>
    obtain ⟨reading, -, rfl⟩ := List.mem_map.mp he
    exact ⟨by rw [Table.contains, hget]; rfl, reading, rfl⟩
  next => simp at he

def readAll (t : Traversal) (s : Watcher δ × Host) : Outcome (Watcher δ × Host) (List HidEvent) :=
  Outcome.collect readAt s (t.arrange s.1.attached.keys)

/-- Reading changes nothing but the readers, and all that is told are readings of attached
devices. -/
theorem readAll_spec (t : Traversal) (s : Watcher δ × Host) :
    s.1.SameDevices (readAll t s).state.1 ∧
      ∀ e ∈ (readAll t s).result, ∃ location reading, e = .value location reading ∧
        s.1.attached.contains location = true := by
  refine Outcome.collect_induction (P := fun u : Watcher δ × Host => s.1.SameDevices u.1)
    (fun u location _ hu => ⟨fun L => ?_, fun e he => ?_⟩) fun _ => rfl
  · rw [sameDevices_readAt u location L, hu L]
  · obtain ⟨hcontains, reading, rfl⟩ := mem_result_readAt he
    exact ⟨location, reading, rfl, hu.contains_eq location ▸ hcontains⟩

/-! ### The whole poll -/

theorem pollIn_of_refreshFails (hfails : h.refreshFails = true) :
    w.pollIn t h = .error .refresh := by
  rw [pollIn, if_pos hfails]

/-- A poll that succeeds tells who comes, then who goes, then the readings of those that are
there. -/
theorem exists_pollIn (w : Watcher δ) (t : Traversal) (hok : h.refreshFails = false) :
    ∃ o, w.pollIn t h = .ok o ∧ o.state = (readAll t (w.settled h.toHostView, h)).state ∧
      o.result = (w.newcomers h.toHostView).map (fun l => .arrived l.device) ++
        (t.arrange (w.departed h.toHostView)).map .removed ++
        (readAll t (w.settled h.toHostView, h)).result := by
  refine ⟨_, if_neg (by simp [hok]), rfl, ?_⟩
  simp only [Outcome.andThen, Outcome.mapResult, detach, result_attachAll, keys_gone]
  rfl

/-! ### Runs -/

variable {s : Watcher δ × Host} {m : Moment}

/-- One poll at a moment. If it fails nothing is told, and the attached devices stay as they are. -/
def step (s : Watcher δ × Host) (m : Moment) : Outcome (Watcher δ × Host) (List HidEvent) :=
  match s.1.pollIn m.traversal (s.2.later m.view m.sent) with
  | .ok o => o
  | .error _ => ⟨(s.1, s.2.later m.view m.sent), [], {}⟩

/-- The polls at some moments, with all that is told. -/
def watch (s : Watcher δ × Host) (moments : List Moment) :
    Outcome (Watcher δ × Host) (List HidEvent) :=
  Outcome.collect step s moments

theorem step_of_refreshFails (hfails : m.view.refreshFails = true) :
    step s m = ⟨(s.1, s.2.later m.view m.sent), [], {}⟩ := by
  rw [step, pollIn_of_refreshFails hfails]

theorem state_step (hok : m.view.refreshFails = false) :
    (step s m).state =
      (readAll m.traversal (s.1.settled m.view, s.2.later m.view m.sent)).state := by
  obtain ⟨o, hpoll, hstate, -⟩ :=
    exists_pollIn s.1 m.traversal (h := s.2.later m.view m.sent) hok
  rw [step, hpoll, hstate]
  rfl

theorem result_step (hok : m.view.refreshFails = false) :
    (step s m).result = (s.1.newcomers m.view).map (fun l => .arrived l.device) ++
      (m.traversal.arrange (s.1.departed m.view)).map .removed ++
      (readAll m.traversal (s.1.settled m.view, s.2.later m.view m.sent)).result := by
  obtain ⟨o, hpoll, -, hresult⟩ :=
    exists_pollIn s.1 m.traversal (h := s.2.later m.view m.sent) hok
  rw [step, hpoll]
  exact hresult

theorem sameDevices_step (hok : m.view.refreshFails = false) :
    (s.1.settled m.view).SameDevices (step s m).state.1 := by
  rw [state_step hok]
  exact (readAll_spec ..).1

theorem contains_step (hok : m.view.refreshFails = false) :
    (step s m).state.1.attached.contains location = true ↔ location ∈ locations m.view.listed := by
  rw [(sameDevices_step hok).contains_eq, contains_settled]

theorem arrived_mem_step {device : Device} :
    .arrived device ∈ (step s m).result ↔
      m.view.refreshFails = false ∧ ∃ l ∈ s.1.newcomers m.view, l.device = device := by
  cases hfails : m.view.refreshFails with
  | true => simp [step_of_refreshFails hfails]
  | false =>
    have hvalues : .arrived device ∉
        (readAll m.traversal (s.1.settled m.view, s.2.later m.view m.sent)).result := by
      intro hmem
      obtain ⟨there, reading, heq, -⟩ := (readAll_spec ..).2 _ hmem
      cases heq
    simp [result_step hfails, hvalues]

theorem removed_mem_step :
    .removed location ∈ (step s m).result ↔
      m.view.refreshFails = false ∧ location ∈ s.1.departed m.view := by
  cases hfails : m.view.refreshFails with
  | true => simp [step_of_refreshFails hfails]
  | false =>
    have hvalues : .removed location ∉
        (readAll m.traversal (s.1.settled m.view, s.2.later m.view m.sent)).result := by
      intro hmem
      obtain ⟨there, reading, heq, -⟩ := (readAll_spec ..).2 _ hmem
      cases heq
    simp [result_step hfails, hvalues, (m.traversal.perm _).mem_iff]

theorem device_step_of_attached {a : Attached δ} (hok : m.view.refreshFails = false)
    (ha : s.1.attached.get? location = some a) (hlisted : location ∈ locations m.view.listed) :
    ((step s m).state.1.attached.get? location).map Attached.device = some a.device := by
  rw [sameDevices_step hok, get?_settled_of_attached ha hlisted, Option.map_some]

theorem device_step_of_newcomer {l : Listing} (hok : m.view.refreshFails = false)
    (hl : l ∈ s.1.newcomers m.view) :
    ((step s m).state.1.attached.get? l.location).map Attached.device = some l.device := by
  rw [sameDevices_step hok, get?_settled_of_newcomer hl, Option.map_some]

end Watcher

end PadRouter

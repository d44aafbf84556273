import PadRouter.Proofs.Watcher.Line
import PadRouter.Report.Layout

/-!
# The readings of a device among others

Polls read all devices in turn and stop reading one that fails. What is told of a device depends on
what this device has sent alone.

* `valuesAt` — what is told of the readings of one device.
* `Watcher.Tracks` — a device is where its line is; `Watcher.Tracks.readAt_of_ne`,
  `Watcher.Tracks.readAt_self` and `Watcher.Tracks.step` keep it.
* `Watcher.readings_of_device` — all that is told of a device from its arrival on.
-/

namespace PadRouter

/-! ### One device among others -/

/-- What is told of the readings of a device. -/
def valuesAt (location : String) (events : List HidEvent) : List Reading :=
  events.filterMap fun e =>
    match e with
    | .value there reading => if there = location then some reading else none
    | _ => none

theorem valuesAt_append (location : String) (first later : List HidEvent) :
    valuesAt location (first ++ later) = valuesAt location first ++ valuesAt location later :=
  List.filterMap_append

theorem valuesAt_eq_nil {location : String} {events : List HidEvent}
    (h : ∀ e ∈ events, ∀ reading, e ≠ .value location reading) : valuesAt location events = [] := by
  refine List.filterMap_eq_nil_iff.mpr fun e he => ?_
  cases e with
  | arrived device => rfl
  | removed gone => rfl
  | value there reading =>
    have hne : there ≠ location := by
      rintro rfl
      exact h _ he reading rfl
    simp [hne]

theorem valuesAt_map_value (location : String) (readings : List Reading) :
    valuesAt location (readings.map (.value location)) = readings := by
  simp [valuesAt, List.filterMap_map]

namespace Watcher

variable {δ : Type} [DeviceDecoder δ] {s : Watcher δ × Host} {w : Watcher δ} {location : String}
  {path : List UInt8} {opened : Option (Reader δ)} {past : List Read} {l : Line} {m : Moment}

/-- Devices are read on paths that stand for their locations. -/
def PathsFit (w : Watcher δ) : Prop :=
  ∀ location a rd, w.attached.get? location = some a → a.reader = some rd →
    Utf8.decodeLossy rd.path = location

omit [DeviceDecoder δ] in
theorem pathsFit_empty : PathsFit ({} : Watcher δ) := by
  intro location a rd ha
  exact absurd ha (by simp)

/-- Whatever is opened is read on its own path. -/
theorem path_of_openReader {v : HostView} {entry : Listing} {rd : Reader δ}
    (h : (openReader v entry).1 = some rd) : rd.path = entry.path := by
  rw [openReader] at h
  split at h
  next => simp at h
  next =>
    rw [readerFor] at h
    split at h
    next => simp at h
    next =>
      split at h
      next =>
        obtain rfl := Option.some.inj h
        rfl
      next => simp at h

theorem pathsFit_settled (h : w.PathsFit) (v : HostView) : (w.settled v).PathsFit := by
  intro location a rd ha hrd
  rw [get?_settled] at ha
  split at ha
  next =>
    rcases Option.or_eq_some_iff.mp ha with ha | ⟨-, ha⟩
    · exact h location a rd ha hrd
    · obtain ⟨entry, hentry, rfl⟩ := Option.map_eq_some_iff.mp ha
      have hloc : entry.location = location := by simpa using List.find?_some hentry
      rw [path_of_openReader hrd]
      exact hloc
  next => simp at ha

theorem pathsFit_readAt (h : s.1.PathsFit) (location : String) :
    (readAt s location).state.1.PathsFit := by
  intro L a rd ha hrd
  unfold readAt at ha
  split at ha
  next device reader hget =>
    rw [Table.get?_insert] at ha
    split at ha
    next heq =>
      obtain rfl := Std.LawfulEqCmp.eq_of_compare heq
      obtain rfl := Option.some.inj ha
      -- the reader that goes on reads on the same path
      dsimp only at hrd
      split at hrd
      next => simp at hrd
      next =>
        obtain rfl := Option.some.inj hrd
        exact h _ _ reader hget rfl
    next => exact h L a rd ha hrd
  next => exact h L a rd ha hrd

theorem pathsFit_readAll (h : s.1.PathsFit) (t : Traversal) : (readAll t s).state.1.PathsFit :=
  (Outcome.collect_induction (P := fun u : Watcher δ × Host => u.1.PathsFit) (Q := fun _ => True)
    (fun _ location _ hu => ⟨pathsFit_readAt hu location, fun _ _ => trivial⟩) h).1

theorem pathsFit_step (h : s.1.PathsFit) (m : Moment) : (step s m).state.1.PathsFit := by
  cases hfails : m.view.refreshFails with
  | true =>
    rw [step_of_refreshFails hfails]
    exact h
  | false =>
    rw [state_step hfails]
    exact pathsFit_readAll (pathsFit_settled h m.view) m.traversal

theorem pathsFit_watch (h : s.1.PathsFit) (moments : List Moment) :
    (watch s moments).state.1.PathsFit :=
  (Outcome.collect_induction (P := fun u : Watcher δ × Host => u.1.PathsFit) (Q := fun _ => True)
    (fun _ m _ hu => ⟨pathsFit_step hu m, fun _ _ => trivial⟩) h).1

/-! ### Reading a device and reading others -/

/-- A device is where its line is: its reader, if it was opened and the line is not closed, has done
the past reads, and the unread ones wait. -/
structure Tracks (opened : Option (Reader δ)) (location : String) (path : List UInt8)
    (past : List Read) (l : Line) (s : Watcher δ × Host) : Prop where
  reader : (s.1.attached.get? location).map Attached.reader =
    some (if l.closed then none else opened.map fun rd => rd.afterReads past)
  unread : s.2.queue path = l.unread
  opens : l.closed = false → ∃ rd, opened = some rd ∧ rd.path = path
  fits : s.1.PathsFit
  location_eq : Utf8.decodeLossy path = location

theorem Tracks.readAt_of_ne (h : Tracks opened location path past l s) {other : String}
    (hne : other ≠ location) : Tracks opened location path past l (readAt s other).state := by
  refine ⟨?_, ?_, h.opens, pathsFit_readAt h.fits other, h.location_eq⟩
  · rw [← h.reader]
    unfold readAt
    split
    next =>
      have hcompare : compare location other ≠ .eq :=
        fun heq => hne (Std.LawfulEqCmp.eq_of_compare heq).symm
      simp only [Table.get?_insert, if_neg hcompare]
    next => rfl
  · rw [← h.unread]
    unfold readAt
    split
    next device reader hget =>
      -- the other device is at another location, so it is read on another path
      have hpath : path ≠ reader.path := by
        rintro rfl
        exact hne ((h.fits other _ reader hget rfl).symm.trans h.location_eq)
      rw [Host.queue_setQueue, if_neg hpath]
    next => rfl

theorem Tracks.readAt_self (h : Tracks opened location path past l s) :
    Tracks opened location path (past ++ l.take) l.next (readAt s location).state ∧
      valuesAt location (readAt s location).result =
        opened.elim [] fun rd => (rd.afterReads past).readingsOf l.take := by
  obtain ⟨a, ha, hreader⟩ := Option.map_eq_some_iff.mp h.reader
  cases hclosed : l.closed with
  | true =>
    have htake : l.take = [] := by rw [Line.take, if_pos hclosed]
    have hnext : l.next = l := by
      rw [Line.next, htake, hclosed]
      simp [← hclosed]
    have hstay : readAt s location = ⟨s, [], {}⟩ := by
      rw [hclosed, if_pos rfl] at hreader
      unfold readAt
      rw [ha]
      obtain ⟨device, reader⟩ := a
      obtain rfl : reader = none := hreader
      rfl
    rw [hstay, htake, hnext, List.append_nil]
    refine ⟨h, ?_⟩
    cases opened <;> rfl
  | false =>
    obtain ⟨rd, rfl, rfl⟩ := h.opens hclosed
    have htake : l.take = Line.portion maxReports l.unread := by
      rw [Line.take, hclosed, if_neg (by simp)]
    have hunread : s.2.queue (rd.afterReads past).path = l.unread := by
      rw [Reader.path_afterReads, h.unread]
    obtain ⟨device, reader⟩ := a
    obtain rfl : reader = some (rd.afterReads past) := by simpa [hclosed] using hreader
    obtain ⟨hdecoder, hrest, hreadings, hfailed⟩ :=
      (rd.afterReads past).drain_eq maxReports l.unread
    rw [← htake] at hdecoder hrest hreadings hfailed
    refine ⟨⟨?_, ?_, fun _ => ⟨rd, rfl, rfl⟩, pathsFit_readAt h.fits location, h.location_eq⟩, ?_⟩
    · unfold readAt
      rw [ha]
      simp only [hunread, hfailed, hdecoder, Table.get?_insert_self, Option.map_some, Line.next,
        hclosed, Bool.false_or, Reader.afterReads_append]
    · unfold readAt
      rw [ha]
      simp only [hunread, hrest, Host.queue_setQueue, if_pos (rd.path_afterReads past).symm, Line.next]
    · unfold readAt
      rw [ha]
      simp only [hunread, hreadings, valuesAt_map_value, Option.elim_some]

theorem Tracks.collect_of_not_mem (h : Tracks opened location path past l s) {order : List String}
    (hnot : location ∉ order) :
    Tracks opened location path past l (Outcome.collect readAt s order).state ∧
      valuesAt location (Outcome.collect readAt s order).result = [] := by
  have hall := Outcome.collect_induction (f := readAt) (l := order)
    (P := Tracks opened location path past l)
    (Q := fun e => ∀ reading, e ≠ .value location reading)
    (fun u other hmem hu => ?_) h
  · exact ⟨hall.1, valuesAt_eq_nil hall.2⟩
  · have hne : other ≠ location := by
      rintro rfl
      exact hnot hmem
    refine ⟨hu.readAt_of_ne hne, fun e he reading heq => ?_⟩
    obtain ⟨-, told, rfl⟩ := mem_result_readAt he
    exact hne (HidEvent.value.inj heq).1

theorem Tracks.readAll (h : Tracks opened location path past l s) (t : Traversal) :
    Tracks opened location path (past ++ l.take) l.next (readAll t s).state ∧
      valuesAt location (readAll t s).result =
        opened.elim [] fun rd => (rd.afterReads past).readingsOf l.take := by
  have hmem : location ∈ t.arrange s.1.attached.keys := by
    obtain ⟨a, ha, -⟩ := Option.map_eq_some_iff.mp h.reader
    exact (t.perm _).mem_iff.mpr (Table.mem_keys_iff.mpr ⟨a, ha⟩)
  have hnodup : (t.arrange s.1.attached.keys).Nodup :=
    (t.perm _).nodup_iff.mpr (Table.nodup_keys _)
  obtain ⟨before, after, hsplit⟩ := List.append_of_mem hmem
  have hnot : location ∉ before ∧ location ∉ after := by
    rw [hsplit] at hnodup
    have hparts := List.nodup_append.mp hnodup
    refine ⟨fun hbefore => hparts.2.2 _ hbefore _ List.mem_cons_self rfl, ?_⟩
    exact (List.nodup_cons.mp hparts.2.1).1
  obtain ⟨hfirst, hsilent⟩ := h.collect_of_not_mem hnot.1
  obtain ⟨hself, htold⟩ := hfirst.readAt_self
  obtain ⟨hlast, hsilent'⟩ := hself.collect_of_not_mem hnot.2
  rw [Watcher.readAll, hsplit, Outcome.state_collect_append, Outcome.result_collect_append,
    Outcome.state_collect_cons, Outcome.result_collect_cons]
  refine ⟨hlast, ?_⟩
  rw [valuesAt_append, valuesAt_append, hsilent, hsilent', htold, List.nil_append, List.append_nil]

/-! ### Polls -/

/-- A poll tells readings only after arrivals and removals. -/
theorem valuesAt_result_step (location : String) (hok : m.view.refreshFails = false) :
    valuesAt location (step s m).result =
      valuesAt location
        (Watcher.readAll m.traversal (s.1.settled m.view, s.2.later m.view m.sent)).result := by
  rw [result_step hok, valuesAt_append, valuesAt_eq_nil, List.nil_append]
  intro e he reading
  rcases List.mem_append.mp he with he | he
  · obtain ⟨l, -, rfl⟩ := List.mem_map.mp he
    simp
  · obtain ⟨gone, -, rfl⟩ := List.mem_map.mp he
    simp

theorem Tracks.step (h : Tracks opened location path past l s) (hok : m.view.refreshFails = false)
    (hstays : .removed location ∉ (step s m).result) :
    let l' := l.send (m.sent.on path)
    Tracks opened location path (past ++ l'.take) l'.next (step s m).state ∧
      valuesAt location (step s m).result =
        opened.elim [] fun rd => (rd.afterReads past).readingsOf l'.take := by
  obtain ⟨a, ha, hreader⟩ := Option.map_eq_some_iff.mp h.reader
  have hlisted : location ∈ locations m.view.listed := by
    by_contra hgone
    have hdeparted : location ∈ s.1.departed m.view :=
      mem_departed.mpr ⟨by rw [Table.contains, ha]; rfl, hgone⟩
    exact hstays (removed_mem_step.mpr ⟨hok, hdeparted⟩)
  have hbefore : Tracks opened location path past (l.send (m.sent.on path))
      (s.1.settled m.view, s.2.later m.view m.sent) := by
    refine ⟨?_, ?_, h.opens, pathsFit_settled h.fits m.view, h.location_eq⟩
    · rw [get?_settled_of_attached ha hlisted, Option.map_some, hreader]
      rfl
    · rw [Host.queue_later, h.unread]
      rfl
  rw [state_step hok, valuesAt_result_step location hok]
  exact hbefore.readAll m.traversal

/-- A device that stays is read as its line says. -/
theorem Tracks.watch {moments : List Moment} (h : Tracks opened location path past l s)
    (hstays : .removed location ∉ (watch s moments).result) :
    valuesAt location (watch s moments).result =
        (opened.elim [] fun rd =>
          (rd.afterReads past).readingsOf (l.taken path moments).flatten) ∧
      (l.taken path moments).flatten ++ (watch s moments).state.2.queue path =
        l.unread ++ moments.flatMap fun m => m.sent.on path := by
  induction moments generalizing past l s with
  | nil =>
    refine ⟨?_, ?_⟩
    · cases opened <;> rfl
    · simpa [watch, Outcome.collect, Line.taken] using h.unread
  | cons m rest ih =>
    have hresult : (Watcher.watch s (m :: rest)).result =
        (Watcher.step s m).result ++ (Watcher.watch (Watcher.step s m).state rest).result := rfl
    have hstate : (Watcher.watch s (m :: rest)).state =
        (Watcher.watch (Watcher.step s m).state rest).state := rfl
    rw [hresult] at hstays ⊢
    rw [hstate]
    have hfirst := fun hmem => hstays (List.mem_append_left _ hmem)
    have hlater := fun hmem => hstays (List.mem_append_right _ hmem)
    cases hfails : m.view.refreshFails with
    | true =>
      have hsend : Tracks opened location path past (l.send (m.sent.on path))
          (Watcher.step s m).state := by
        rw [step_of_refreshFails hfails]
        refine ⟨h.reader, ?_, h.opens, h.fits, h.location_eq⟩
        rw [Host.queue_later, h.unread]
        rfl
      obtain ⟨hvalues, hrest⟩ := ih hsend hlater
      have hsilent : (Watcher.step s m).result = [] := by rw [step_of_refreshFails hfails]
      rw [Line.taken, if_pos hfails, List.flatten_cons, List.nil_append, hrest, hsilent,
        List.nil_append, hvalues, List.flatMap_cons]
      exact ⟨rfl, List.append_assoc ..⟩
    | false =>
      obtain ⟨hnext, htold⟩ := h.step hfails hfirst
      obtain ⟨hvalues, hrest⟩ := ih hnext hlater
      rw [Line.taken, if_neg (by simp [hfails]), List.flatten_cons, List.append_assoc, hrest,
        ← List.append_assoc, Line.take_append_next, List.flatMap_cons, ← List.append_assoc]
      refine ⟨?_, rfl⟩
      rw [valuesAt_append, htold, hvalues]
      cases opened with
      | none => rfl
      | some rd =>
        simp only [Option.elim_some, Reader.readingsOf_append, Reader.afterReads_append]

/-- A device that has just arrived has not been read. If it was not opened it is not going to be. -/
theorem tracks_newcomer (hfits : s.1.PathsFit) {entry : Listing}
    (hnew : entry ∈ s.1.newcomers m.view) :
    let opened := (openReader m.view entry).1
    Tracks opened entry.location entry.path []
      (Line.send ⟨s.2.queue entry.path, opened.isNone⟩ (m.sent.on entry.path))
      (s.1.settled m.view, s.2.later m.view m.sent) := by
  intro opened
  refine ⟨?_, Host.queue_later .., fun hopen => ?_, pathsFit_settled hfits m.view, rfl⟩
  · rw [get?_settled_of_newcomer hnew, Option.map_some]
    change some opened = some (if opened.isNone then none else opened.map fun rd => rd)
    cases opened <;> rfl
  · obtain ⟨rd, hrd⟩ := Option.isSome_iff_exists.mp (Option.isNone_eq_false_iff.mp hopen)
    exact ⟨rd, hrd, path_of_openReader hrd⟩

/-- **The readings of a device.** Take a device that arrives after any polls. As long as it is not
removed, all readings told of it are those that its own decoder makes of what is taken of its own
line, one read after the other, whatever the other devices send and in whatever order the devices
are gone through. Nothing of the line is lost or taken twice. A poll takes at most `maxReports` reads
and stops at the first one that brings no report, and after a failed read nothing is taken any
more. -/
theorem readings_of_device (h : Host) (before : List Moment) (m : Moment) (since : List Moment)
    (entry : Listing)
    (hok : m.view.refreshFails = false)
    (hnew : entry ∈ (watch (({} : Watcher δ), h) before).state.1.newcomers m.view)
    (hstays : .removed entry.location ∉
      (watch (watch (({} : Watcher δ), h) before).state (m :: since)).result) :
    let s := (watch (({} : Watcher δ), h) before).state
    let told := watch s (m :: since)
    let opened : Option (Reader δ) := (openReader m.view entry).1
    let line : Line := ⟨s.2.queue entry.path, opened.isNone⟩
    let taken := line.taken entry.path (m :: since)
    valuesAt entry.location told.result =
        (opened.elim [] fun rd => rd.readingsOf taken.flatten) ∧
      taken.flatten ++ told.state.2.queue entry.path =
        s.2.queue entry.path ++ (m :: since).flatMap (fun m => m.sent.on entry.path) ∧
      (∀ t ∈ taken, t.length ≤ maxReports ∧ ∀ r ∈ t.dropLast, r.isReport = true) ∧
      ∀ past t later, taken = past ++ t :: later → .failure ∈ t → ∀ u ∈ later, u = [] := by
  intro s told opened line taken
  have harrived : Tracks opened entry.location entry.path [] (line.send (m.sent.on entry.path))
      (s.1.settled m.view, s.2.later m.view m.sent) :=
    tracks_newcomer (pathsFit_watch pathsFit_empty before) hnew
  obtain ⟨hfirst, hvalues⟩ := harrived.readAll m.traversal
  rw [← state_step hok] at hfirst
  rw [← valuesAt_result_step entry.location hok] at hvalues
  obtain ⟨hlater, hunread⟩ := hfirst.watch fun hmem => hstays (List.mem_append_right _ hmem)
  have htaken : taken = (line.send (m.sent.on entry.path)).take ::
      (line.send (m.sent.on entry.path)).next.taken entry.path since :=
    if_neg (by simp [hok])
  refine ⟨?_, ?_, fun t ht => ?_, fun past t later hsplit hfailed =>
    Line.taken_after_failure hsplit hfailed⟩
  · have hresult : told.result =
        (step s m).result ++ (watch (step s m).state since).result := rfl
    rw [hresult, valuesAt_append, hvalues, hlater, htaken]
    cases opened with
    | none => rfl
    | some rd =>
      rw [List.flatten_cons, Option.elim_some, Option.elim_some, Option.elim_some,
        Reader.readingsOf_append]
      rfl
  · have hstate : told.state = (watch (step s m).state since).state := rfl
    rw [hstate, htaken, List.flatten_cons, List.append_assoc, hunread, ← List.append_assoc,
      Line.take_append_next, List.flatMap_cons, ← List.append_assoc]
    rfl
  · obtain ⟨n, reads, hn, rfl⟩ := Line.mem_taken ht
    exact ⟨Nat.le_trans (Line.length_portion_le n reads) hn,
      fun r hr => Line.isReport_of_mem_dropLast hr⟩

end Watcher

/-! ### Two sticks -/

/-- A stick with one axis, whose reports are just its place. -/
def Layout.oneAxis : Layout where
  reportLength := 2
  values := [⟨⟨0, Page.desktop, 0, Usage.x, Usage.x, 0, 255, 8⟩, 0, 0⟩]

/-- Two such sticks, `p` and `q`, are listed. -/
def HostView.twoSticks : HostView where
  decodes := true
  listed := [.stick [0x70], .stick [0x71]]
  files := (Table.insert {} "p" Layout.oneAxis.file).insert "q" Layout.oneAxis.file

/-- Stick `p` has moved and then failed. -/
def Moment.stickFails : Moment where
  view := .twoSticks
  sent := [([0x70], [.bytes [16], .failure]), ([0x71], [.bytes [64]])]

/-- Both sticks have moved, and the poll goes through them the other way round. -/
def Moment.bothMove : Moment where
  view := .twoSticks
  sent := [([0x70], [.bytes [32]]), ([0x71], [.bytes [65]])]
  traversal := ⟨List.reverse, List.reverse_perm⟩

open Watcher in
/-- What stick `p` has said before it failed is told, and nothing after that. Stick `q` goes on. -/
theorem failed_stick_is_silent :
    let start := (watch (({} : Watcher ReportDecoder), { decodes := true }) []).state
    let told := (watch start [.stickFails, .bothMove]).result
    Moment.stickFails.view.refreshFails = false ∧
      Listing.stick [0x70] ∈ start.1.newcomers Moment.stickFails.view ∧
      .removed (Listing.stick [0x70]).location ∉ told ∧
      valuesAt (Listing.stick [0x70]).location told = [⟨⟨Page.desktop, Usage.x⟩, 16, 0, 255⟩] ∧
      valuesAt "q" told =
        [⟨⟨Page.desktop, Usage.x⟩, 64, 0, 255⟩, ⟨⟨Page.desktop, Usage.x⟩, 65, 0, 255⟩] := by
  intro start told
  have hok : Moment.stickFails.view.refreshFails = false := rfl
  have hnew : Listing.stick [0x70] ∈ start.1.newcomers Moment.stickFails.view := by decide +kernel
  have hstays : .removed (Listing.stick [0x70]).location ∉ told := by decide +kernel
  have hvalues := (readings_of_device { decodes := true } [] .stickFails [.bothMove]
    (Listing.stick [0x70]) hok hnew hstays).1
  refine ⟨hok, hnew, hstays, hvalues.trans ?_, ?_⟩ <;> decide +kernel

end PadRouter

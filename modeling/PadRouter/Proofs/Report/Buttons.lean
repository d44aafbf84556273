import Mathlib.Data.List.Induction
import PadRouter.Report.Layout

/-!
# Which buttons a report decides

The buttons that are down after a report are those that the answers to this report name. Buttons
that the report does not carry have no answers and count as let go, whatever their own last report
said.

* `ReportDecoder.after` — the decoder after some reports.
* `ReportDecoder.Covers`, `ReportDecoder.Names` — a report carries a group of buttons of a page; the
  answers to a report name a button.
* `FieldMap.KeepsUncovered` — reports leave the buttons of pages that they do not carry as they are.
* `keepsUncovered_iff` — this is so only where there is nothing to keep: every report carries some
  group of each page.
-/

namespace PadRouter

/-- A report as the device sends it: an identifier and a body. -/
abbrev RawReport := UInt8 × List UInt8

namespace ReportDecoder

/-- The decoder after some reports. -/
def after (d : ReportDecoder) (reports : List RawReport) : ReportDecoder :=
  reports.foldl (fun d report => (d.decode report.1 report.2).decoder) d

/-- The identifier that a report is decoded under. -/
def idOf (d : ReportDecoder) (report : RawReport) : UInt8 :=
  (Report.frame d.unnumbered report.1 report.2).1

/-- The bytes that the questions about a report are about. -/
def bytesOf (d : ReportDecoder) (report : RawReport) : List UInt8 :=
  Report.buffer d.reportLength.toNat (d.idOf report)
    (Report.frame d.unnumbered report.1 report.2).2

/-- Whether reports with an identifier carry a group of buttons of a page. -/
def Covers (buttons : List ButtonCapability) (page : UInt16) (id : UInt8) : Prop :=
  ∃ b ∈ buttons, b.page = page ∧ carries b.reportId id = true

instance (buttons : List ButtonCapability) (page : UInt16) (id : UInt8) :
    Decidable (Covers buttons page id) :=
  inferInstanceAs (Decidable (∃ b ∈ buttons, b.page = page ∧ carries b.reportId id = true))

/-- Whether an answer to a report names a button. -/
def Names (d : ReportDecoder) (report : RawReport) (e : Element) : Prop :=
  ∃ b ∈ d.buttons, b.page = e.page ∧ carries b.reportId (d.idOf report) = true ∧
    ∃ usages, d.queries.usages (d.bytesOf report) b.page b.collection = .ok usages ∧
      e.usage ∈ usages

variable {d : ReportDecoder} {report : RawReport} {e : Element}

theorem Names.covers (h : d.Names report e) : Covers d.buttons e.page (d.idOf report) := by
  obtain ⟨b, hb, hpage, hcarries, -⟩ := h
  exact ⟨b, hb, hpage, hcarries⟩

/-! ### The buttons that are down -/

theorem contains_elementSet {elements : List Element} :
    (elementSet elements).contains e = true ↔ e ∈ elements := by
  rw [elementSet, Table.contains_insertAll, List.map_map]
  have hempty : (Table.empty : Table Element Unit).contains e = false := rfl
  simp [hempty, Function.comp_def]

theorem mem_missingFrom {s t : Table Element Unit} :
    e ∈ missingFrom s t ↔ s.contains e = true ∧ t.contains e = false := by
  rw [missingFrom, Table.mem_keys_iff_contains, Table.contains, Table.get?_filter]
  cases hs : s.get? e <;> simp [Table.contains, hs, Option.filter]

/-- A release is told for the buttons that were down and are not any more. -/
theorem release_mem_edges {before after : Table Element Unit} :
    ⟨e, 0, 0, 1⟩ ∈ edges before after ↔ before.contains e = true ∧ after.contains e = false := by
  simp [edges, mem_missingFrom]

theorem contains_pressedIn {id : UInt8} {bytes : List UInt8} :
    (pressedIn (d.buttonAnswers id bytes)).contains e = true ↔
      ∃ b ∈ d.buttons, b.page = e.page ∧ carries b.reportId id = true ∧
        ∃ usages, d.queries.usages bytes b.page b.collection = .ok usages ∧ e.usage ∈ usages := by
  rw [pressedIn, contains_elementSet, List.mem_flatMap]
  simp only [buttonAnswers, List.mem_map, List.mem_filter]
  constructor
  · rintro ⟨-, ⟨b, ⟨hb, hcarries⟩, rfl⟩, he⟩
    cases hanswer : d.queries.usages bytes b.page b.collection with
    | error status => simp [hanswer] at he
    | ok usages =>
      simp only [hanswer, List.mem_map] at he
      obtain ⟨usage, husage, rfl⟩ := he
      exact ⟨b, hb, rfl, hcarries, usages, hanswer, husage⟩
  · rintro ⟨b, hb, hpage, hcarries, usages, hanswer, husage⟩
    refine ⟨(b, .ok usages), ⟨b, ⟨hb, hcarries⟩, by rw [hanswer]⟩, ?_⟩
    exact List.mem_map.mpr ⟨e.usage, husage, by rw [hpage]⟩

/-- After a report those buttons are down that its answers name, whatever was down before. -/
theorem contains_pressed_decode (d : ReportDecoder) (report : RawReport) (e : Element) :
    (d.decode report.1 report.2).decoder.pressed.contains e = true ↔ d.Names report e :=
  contains_pressedIn

theorem release_mem_readings (hdown : d.pressed.contains e = true) (hnamed : ¬ d.Names report e) :
    ⟨e, 0, 0, 1⟩ ∈ (d.decode report.1 report.2).readings := by
  refine List.mem_append_left _ (release_mem_edges.mpr ⟨hdown, ?_⟩)
  exact Bool.eq_false_iff.mpr fun hafter => hnamed ((contains_pressed_decode d report e).mp hafter)

/-! ### Runs -/

theorem after_concat (d : ReportDecoder) (reports : List RawReport) (report : RawReport) :
    d.after (reports ++ [report]) =
      ((d.after reports).decode report.1 report.2).decoder := by
  simp [after]

/-- Reports change nothing but the buttons that are down and the values. -/
theorem after_fixed (d : ReportDecoder) (reports : List RawReport) :
    ∃ pressed values, d.after reports = { d with pressed := pressed, values := values } := by
  induction reports using List.reverseRecOn with
  | nil => exact ⟨d.pressed, d.values, rfl⟩
  | append_singleton reports report ih =>
    obtain ⟨pressed, values, hfixed⟩ := ih
    rw [after_concat, hfixed]
    exact ⟨_, _, rfl⟩

theorem idOf_of_unnumbered (h : d.unnumbered = true) (report : RawReport) : d.idOf report = 0 := by
  by_cases hzero : report.1 = 0
  · simp [idOf, Report.frame, hzero]
  · simp [idOf, Report.frame, h, hzero]

theorem idOf_of_numbered (h : d.unnumbered = false) (report : RawReport) :
    d.idOf report = report.1 := by
  simp [idOf, Report.frame, h]

section Reachable

variable {map : FieldMap} {queries : ReportQueries} {reports : List RawReport}

theorem buttons_reachable : ((new map queries).after reports).buttons = map.buttons := by
  obtain ⟨pressed, values, hfixed⟩ := after_fixed (new map queries) reports
  rw [hfixed]
  rfl

theorem unnumbered_reachable :
    ((new map queries).after reports).unnumbered = map.unnumbered := by
  obtain ⟨pressed, values, hfixed⟩ := after_fixed (new map queries) reports
  rw [hfixed]
  rfl

theorem covers_of_names (h : ((new map queries).after reports).Names report e) :
    Covers map.buttons e.page (((new map queries).after reports).idOf report) := by
  have hcovers := h.covers
  rwa [buttons_reachable] at hcovers

/-- A button that is down was carried by the last report. -/
theorem exists_covers_of_pressed
    (h : ((new map queries).after reports).pressed.contains e = true) :
    ∃ report, Covers map.buttons e.page (((new map queries).after reports).idOf report) := by
  rcases List.eq_nil_or_concat reports with rfl | ⟨earlier, last, rfl⟩
  · simp [after, new, Table.contains] at h
  · rw [List.concat_eq_append] at h ⊢
    have hnames := h
    rw [after_concat, contains_pressed_decode] at hnames
    refine ⟨last, ?_⟩
    -- the identifier depends on the field map only
    have hid : ((new map queries).after (earlier ++ [last])).idOf last =
        ((new map queries).after earlier).idOf last := by
      simp only [idOf, unnumbered_reachable]
    rw [hid]
    exact covers_of_names hnames

end Reachable

end ReportDecoder

open ReportDecoder

/-- Reports leave the buttons of the pages that they do not carry as they are. -/
def FieldMap.KeepsUncovered (map : FieldMap) : Prop :=
  ∀ (queries : ReportQueries) (reports : List RawReport) (report : RawReport) (e : Element),
    let d := (ReportDecoder.new map queries).after reports
    let after := (d.decode report.1 report.2).decoder
    d.pressed.contains e = true → ¬ Covers map.buttons e.page (d.idOf report) →
      after.pressed.contains e = true ∧ ⟨e, 0, 0, 1⟩ ∉ edges d.pressed after.pressed

namespace FieldMap

variable {map : FieldMap}

/-- Where every report carries each page there is nothing to keep. -/
theorem keepsUncovered_of_covers
    (h : map.unnumbered = true ∨ ∀ b ∈ map.buttons, ∀ id, Covers map.buttons b.page id) :
    map.KeepsUncovered := by
  intro queries reports report e d after hdown huncovered
  refine absurd ?_ huncovered
  obtain ⟨last, hcovers⟩ := exists_covers_of_pressed hdown
  rcases h with hunnumbered | hall
  · have hd : d.unnumbered = true := unnumbered_reachable.trans hunnumbered
    rw [idOf_of_unnumbered hd] at hcovers ⊢
    exact hcovers
  · obtain ⟨b, hb, hpage, -⟩ := hcovers
    rw [← hpage]
    exact hall b hb _

/-- The answers of a device whose only button in each group is on. -/
def onlyFirstButton : ReportQueries := ⟨fun _ _ _ => .ok [1], fun _ _ _ _ => .error 0⟩

/-- Else there is a run that lets go of a button: the group is asked once, and then comes a report
that does not carry its page. -/
theorem covers_of_keepsUncovered (h : map.KeepsUncovered) :
    map.unnumbered = true ∨ ∀ b ∈ map.buttons, ∀ id, Covers map.buttons b.page id := by
  cases hunnumbered : map.unnumbered with
  | true => exact .inl rfl
  | false =>
    refine .inr fun b hb id => ?_
    by_contra huncovered
    let d := (ReportDecoder.new map onlyFirstButton).after [(b.reportId, [])]
    have hd : d.unnumbered = false := unnumbered_reachable.trans hunnumbered
    have hdown : d.pressed.contains ⟨b.page, 1⟩ = true := by
      have hstart : (ReportDecoder.new map onlyFirstButton).unnumbered = false := hunnumbered
      refine (contains_pressed_decode _ (b.reportId, []) _).mpr ?_
      refine ⟨b, hb, rfl, ?_, [1], rfl, List.mem_singleton.mpr rfl⟩
      rw [idOf_of_numbered hstart]
      simp [carries]
    have hid : d.idOf (id, []) = id := idOf_of_numbered hd (id, [])
    rw [← hid] at huncovered
    obtain ⟨hkept, -⟩ := h onlyFirstButton [(b.reportId, [])] (id, []) ⟨b.page, 1⟩ hdown huncovered
    rw [contains_pressed_decode] at hkept
    exact huncovered (covers_of_names hkept)

end FieldMap

/-- **Buttons that a report does not carry.** They stay down if and only if there is nothing to
keep: reports have no identifiers, or each report carries some group of every page. In general a
button is down after a report if and only if an answer to this report names it; so a button that
was down is let go, and its release told, by the first report that does not carry its page. -/
theorem keepsUncovered_iff (map : FieldMap) :
    (map.KeepsUncovered ↔
      map.unnumbered = true ∨ ∀ b ∈ map.buttons, ∀ id, Covers map.buttons b.page id) ∧
    ∀ (queries : ReportQueries) (reports : List RawReport) (report : RawReport) (e : Element),
      let d := (ReportDecoder.new map queries).after reports
      let o := d.decode report.1 report.2
      (o.decoder.pressed.contains e = true ↔ d.Names report e) ∧
      (d.pressed.contains e = true → ¬ Covers map.buttons e.page (d.idOf report) →
        o.decoder.pressed.contains e = false ∧ ⟨e, 0, 0, 1⟩ ∈ o.readings) := by
  refine ⟨⟨FieldMap.covers_of_keepsUncovered, FieldMap.keepsUncovered_of_covers⟩, ?_⟩
  intro queries reports report e d o
  have hafter := contains_pressed_decode d report e
  refine ⟨hafter, fun hdown huncovered => ?_⟩
  have hnamed : ¬ d.Names report e := fun hnames => huncovered (covers_of_names hnames)
  exact ⟨Bool.eq_false_iff.mpr fun h => hnamed (hafter.mp h), release_mem_readings hdown hnamed⟩

/-! ### A pad with two reports -/

/-- A pad whose buttons and stick are in report 1 and whose twist is in report 2. -/
def Layout.twoReports : Layout where
  reportLength := 5
  buttons := [⟨⟨1, Page.button, 0⟩, 0, (List.range 8).map fun n => (UInt16.ofNat (n + 1), n)⟩]
  values := [
    ⟨⟨1, Page.desktop, 0, Usage.x, Usage.x, 0, 255, 8⟩, 0, 8⟩,
    ⟨⟨2, Page.desktop, 0, Usage.rz, Usage.rz, 0, 255, 8⟩, 0, 0⟩,
    ⟨⟨1, Page.desktop, 0, Usage.y, Usage.y, 0, 255, 8⟩, 0, 16⟩]

/-- The fields of this pad. -/
def FieldMap.twoReports : FieldMap where
  reportLength := 5
  buttons := [⟨1, Page.button, 0⟩]
  values := [
    ⟨1, Page.desktop, Usage.x, 0, 0, 255, 8⟩,
    ⟨2, Page.desktop, Usage.rz, 0, 0, 255, 8⟩,
    ⟨1, Page.desktop, Usage.y, 0, 0, 255, 8⟩]
  unnumbered := false

/-- Button 1 of this pad is held, and moving the twist lets go of it. -/
theorem twist_releases_button :
    Layout.twoReports.capabilities.bind FieldMap.ofCapabilities? = some FieldMap.twoReports ∧
    (let d := (ReportDecoder.new FieldMap.twoReports Layout.twoReports.file.queries).after
      [(1, [0x01, 0x80, 0xff])]
    d.pressed.contains ⟨Page.button, 1⟩ = true ∧
      ¬ Covers FieldMap.twoReports.buttons Page.button (d.idOf (2, [0x44])) ∧
      (d.decode 2 [0x44]).decoder.pressed.contains ⟨Page.button, 1⟩ = false ∧
      (d.decode 2 [0x44]).readings =
        [⟨⟨Page.button, 1⟩, 0, 0, 1⟩, ⟨⟨Page.desktop, Usage.rz⟩, 68, 0, 255⟩]) ∧
    ¬ FieldMap.twoReports.KeepsUncovered := by
  refine ⟨by decide, by decide, fun h => ?_⟩
  have hkept := h Layout.twoReports.file.queries [(1, [0x01, 0x80, 0xff])] (2, [0x44])
    ⟨Page.button, 1⟩ (by decide) (by decide)
  exact absurd hkept.1 (by decide)

end PadRouter

import Mathlib.Data.List.Destutter
import PadRouter.Proofs.Report.Buttons

/-!
# What is told of a run of reports

Reports are snapshots, and only what changes is told. Nothing is lost this way: the buttons that are
down can be replayed from the releases and presses, and the values told of a field are its answers
without repetitions. The host may answer each report as it likes.

* `AnsweredReport`, `ReportDecoder.receive`, `ReportDecoder.afterAll` — a report with the host's
  answers about it, and the decoder after some of them.
* `applyEdge`, `replay` — what a release or a press does to a set of buttons.
* `ReportDecoder.edgesOf` — the releases and presses told with one report; `replay_edges` says that
  they lead from the old set to the new one.
* `FieldMap.answer?`, `FieldMap.answers`, `FieldMap.news` — the reading that a report gives for a
  field, all of them, and the one that is new.
* `Keeps`, `Keeps.receive` — what the decoder keeps of each field, and what it says of a report.
* `run_tells_changes` — the law of the whole run.
-/

namespace PadRouter

/-- A report, and what the host answers when it is asked about it. -/
structure AnsweredReport where
  report : RawReport
  queries : ReportQueries

namespace ReportDecoder

/-- Decodes a report by what the host answers about it. -/
def receive (d : ReportDecoder) (x : AnsweredReport) : Decoded ReportDecoder :=
  decode { d with queries := x.queries } x.report.1 x.report.2

/-- The decoder after some reports. -/
def afterAll (d : ReportDecoder) (xs : List AnsweredReport) : ReportDecoder :=
  xs.foldl (fun d x => (d.receive x).decoder) d

/-- The releases and presses that are told with a report. -/
def edgesOf (d : ReportDecoder) (x : AnsweredReport) : List Reading :=
  edges d.pressed (d.receive x).decoder.pressed

theorem afterAll_concat (d : ReportDecoder) (xs : List AnsweredReport) (x : AnsweredReport) :
    d.afterAll (xs ++ [x]) = ((d.afterAll xs).receive x).decoder := by
  simp [afterAll]

end ReportDecoder

open ReportDecoder

/-! ### Sets of buttons -/

/-- A set of buttons after a release or a press. -/
def applyEdge (s : Table Element Unit) (r : Reading) : Table Element Unit :=
  if r.value = 0 then s.erase r.element else s.insert r.element ()

/-- A set of buttons after some releases and presses. -/
def replay (s : Table Element Unit) (readings : List Reading) : Table Element Unit :=
  readings.foldl applyEdge s

section Sets

variable {s before after : Table Element Unit} {e : Element} {elements : List Element}

theorem replay_append (s : Table Element Unit) (first later : List Reading) :
    replay s (first ++ later) = replay (replay s first) later := by
  simp [replay]

theorem contains_replay_releases :
    (replay s (elements.map fun e => ⟨e, 0, 0, 1⟩)).contains e = true ↔
      s.contains e = true ∧ e ∉ elements := by
  induction elements generalizing s with
  | nil => simp [replay]
  | cons first rest ih =>
    have hstep : replay s ((first :: rest).map fun e => ⟨e, 0, 0, 1⟩) =
        replay (s.erase first) (rest.map fun e => ⟨e, 0, 0, 1⟩) := rfl
    rw [hstep, ih, Table.contains, Table.get?_erase]
    by_cases he : first = e
    · simp [he]
    · have hcompare : compare first e ≠ .eq := fun h => he (Std.LawfulEqCmp.eq_of_compare h)
      have hne : e ≠ first := fun h => he h.symm
      simp [hcompare, hne, Table.contains]

theorem contains_replay_presses :
    (replay s (elements.map fun e => ⟨e, 1, 0, 1⟩)).contains e = true ↔
      s.contains e = true ∨ e ∈ elements := by
  induction elements generalizing s with
  | nil => simp [replay]
  | cons first rest ih =>
    have hstep : replay s ((first :: rest).map fun e => ⟨e, 1, 0, 1⟩) =
        replay (s.insert first ()) (rest.map fun e => ⟨e, 1, 0, 1⟩) := rfl
    rw [hstep, ih, Table.contains, Table.get?_insert]
    by_cases he : e = first
    · simp [he]
    · have hcompare : compare e first ≠ .eq := fun h => he (Std.LawfulEqCmp.eq_of_compare h)
      simp [hcompare, he, Table.contains]

/-- Sets with the same members are equal. -/
theorem set_ext (h : ∀ e, before.contains e = true ↔ after.contains e = true) : before = after := by
  refine Table.ext_get? fun e => ?_
  have he := h e
  unfold Table.contains at he
  cases hbefore : before.get? e <;> cases hafter : after.get? e <;> simp_all

/-- Releases and presses lead from the set before to the set after. -/
theorem replay_edges (before after : Table Element Unit) :
    replay before (edges before after) = after := by
  refine set_ext fun e => ?_
  rw [edges, replay_append, contains_replay_presses, contains_replay_releases, mem_missingFrom,
    mem_missingFrom]
  cases before.contains e <;> cases after.contains e <;> simp

theorem pairwise_missingFrom (before after : Table Element Unit) :
    (missingFrom before after).Pairwise fun a b => compare a b = .lt :=
  Table.pairwise_keys _

/-- No button is both let go and pressed, and none twice. -/
theorem nodup_missingFrom_append (before after : Table Element Unit) :
    (missingFrom before after ++ missingFrom after before).Nodup := by
  refine List.nodup_append'.mpr ⟨Table.nodup_keys _, Table.nodup_keys _, fun e hup hdown => ?_⟩
  obtain ⟨hbefore, -⟩ := mem_missingFrom.mp hup
  obtain ⟨-, hnot⟩ := mem_missingFrom.mp hdown
  rw [hbefore] at hnot
  exact Bool.noConfusion hnot

end Sets

/-! ### Lists -/

/-- What is said along a list, where each item is seen together with those before it. -/
def saidAlong {α β : Type} (say : List α → α → List β) : List α → List α → List β
  | _, [] => []
  | before, x :: rest => say before x ++ saidAlong say (before ++ [x]) rest

theorem saidAlong_concat {α β : Type} (say : List α → α → List β) (before xs : List α) (x : α) :
    saidAlong say before (xs ++ [x]) = saidAlong say before xs ++ say (before ++ xs) x := by
  induction xs generalizing before with
  | nil => simp [saidAlong]
  | cons first rest ih => simp [saidAlong, ih]

/-- An item at the end is a repetition or it stays. -/
theorem destutter_concat {α : Type} [DecidableEq α] (l : List α) (a : α) :
    (l ++ [a]).destutter (· ≠ ·) =
      l.destutter (· ≠ ·) ++ if l.getLast? = some a then [] else [a] := by
  cases l with
  | nil => simp
  | cons b l =>
    simp only [List.cons_append, List.destutter_cons']
    induction l generalizing b with
    | nil => by_cases hb : b = a <;> simp [hb]
    | cons c l ih =>
      by_cases hbc : b = c
      · subst hbc
        simpa [List.destutter'_cons_neg] using ih b
      · simpa [List.destutter'_cons_pos, hbc] using ih c

/-! ### The answers for one field -/

namespace FieldMap

variable (map : FieldMap) (f : ValueField) (before : List AnsweredReport) (x : AnsweredReport)

/-- The identifier that a report is decoded under. -/
def idIn : UInt8 := (new map x.queries).idOf x.report

/-- What the host answers about the bits of a field, if it is asked for it in a collection. -/
def bitsIn (collection : UInt16) : Option UInt32 :=
  (x.queries.usageValue ((new map x.queries).bytesOf x.report) f.page collection f.usage).toOption

/-- A report moves a field to collection 0 if it carries the field, the field's own collection gives
no answer, and collection 0 gives one. -/
def Moves : Prop :=
  carries f.reportId (map.idIn x) = true ∧ map.bitsIn f x f.collection = none ∧
    (map.bitsIn f x 0).isSome = true

instance : Decidable (map.Moves f x) := inferInstanceAs (Decidable (_ ∧ _ ∧ _))

/-- The collection in which a field is asked for first. -/
def collectionAfter : UInt16 := if ∃ x ∈ before, map.Moves f x then 0 else f.collection

/-- The reading that a report gives for a field; collection 0 is the last resort. -/
def answer? : Option Reading :=
  if carries f.reportId (map.idIn x) then
    ((map.bitsIn f x (map.collectionAfter f before)).or (map.bitsIn f x 0)).map f.reading
  else none

/-- The readings that some reports give for a field, in order. -/
def answers : List Reading :=
  saidAlong (fun before x => (map.answer? f before x).toList) [] before

/-- The reading that a report gives for a field, if it is not the one given last. -/
def news : List Reading :=
  (map.answer? f before x).toList.filter fun r => (map.answers f before).getLast? != some r

/-- The field as it is kept after some reports. -/
def kept : TrackedValue where
  field := { f with collection := map.collectionAfter f before }
  last := (map.answers f before).getLast?.map Reading.value

variable {map f before x}

theorem bitsIn_eq_some_iff {collection : UInt16} {raw : UInt32} :
    map.bitsIn f x collection = some raw ↔
      x.queries.usageValue ((new map x.queries).bytesOf x.report) f.page collection f.usage =
        .ok raw := by
  unfold bitsIn
  cases x.queries.usageValue _ _ _ _ <;> simp [Except.toOption]

theorem bitsIn_eq_none_iff {collection : UInt16} :
    map.bitsIn f x collection = none ↔
      ∃ status, x.queries.usageValue ((new map x.queries).bytesOf x.report) f.page collection
        f.usage = .error status := by
  unfold bitsIn
  cases x.queries.usageValue _ _ _ _ <;> simp [Except.toOption]

theorem answers_concat :
    map.answers f (before ++ [x]) = map.answers f before ++ (map.answer? f before x).toList :=
  saidAlong_concat _ [] before x

/-- Along a run the new readings are the readings without repetitions. -/
theorem saidAlong_news (map : FieldMap) (f : ValueField) (xs : List AnsweredReport) :
    saidAlong (map.news f) [] xs = (map.answers f xs).destutter (· ≠ ·) := by
  induction xs using List.reverseRecOn with
  | nil => rfl
  | append_singleton xs x ih =>
    rw [saidAlong_concat, ih, answers_concat, List.nil_append, news]
    cases map.answer? f xs x with
    | none => simp
    | some r =>
      rw [Option.toList_some, destutter_concat]
      by_cases hlast : (map.answers f xs).getLast? = some r <;> simp [hlast]

theorem collectionAfter_concat :
    map.collectionAfter f (before ++ [x]) =
      if map.Moves f x then 0 else map.collectionAfter f before := by
  unfold collectionAfter
  by_cases hmoves : map.Moves f x <;> simp [hmoves, or_and_right, exists_or]

theorem collectionAfter_eq_or (map : FieldMap) (f : ValueField) (before : List AnsweredReport) :
    map.collectionAfter f before = 0 ∨ map.collectionAfter f before = f.collection := by
  unfold collectionAfter
  split
  · exact .inl rfl
  · exact .inr rfl

/-- A field stays where it is asked for as long as it is found there. -/
theorem collectionAfter_concat_of_found {raw : UInt32}
    (h : map.bitsIn f x (map.collectionAfter f before) = some raw) :
    map.collectionAfter f (before ++ [x]) = map.collectionAfter f before := by
  rw [collectionAfter_concat]
  split
  next hmoves =>
    rcases collectionAfter_eq_or map f before with hzero | hown
    · exact hzero.symm
    · rw [hown, hmoves.2.1] at h
      simp at h
  next => rfl

/-- The value of a reading of a field determines the reading. -/
theorem reading_eq_of_value_eq {raw raw' : UInt32}
    (h : (f.reading raw).value = (f.reading raw').value) : f.reading raw = f.reading raw' := by
  unfold ValueField.reading at h ⊢
  split at h <;> simp_all

theorem exists_bits_of_mem_answers {r : Reading} (h : r ∈ map.answers f before) :
    ∃ raw, r = f.reading raw := by
  induction before using List.reverseRecOn with
  | nil => simp [answers, saidAlong] at h
  | append_singleton before x ih =>
    rw [answers_concat, List.mem_append, Option.mem_toList] at h
    rcases h with h | h
    · exact ih h
    · unfold answer? at h
      split at h
      · obtain ⟨raw, -, rfl⟩ := Option.map_eq_some_iff.mp h
        exact ⟨raw, rfl⟩
      · simp at h

/-- A reading is the last one that was given if its value is the one that is kept. -/
theorem last_kept_eq_iff {raw : UInt32} :
    (map.kept f before).last = some (f.reading raw).value ↔
      (map.answers f before).getLast? = some (f.reading raw) := by
  unfold kept
  cases hlast : (map.answers f before).getLast? with
  | none => simp
  | some r =>
    obtain ⟨raw', rfl⟩ := exists_bits_of_mem_answers (List.mem_of_getLast? hlast)
    simp only [Option.map_some, Option.some_inj]
    exact ⟨reading_eq_of_value_eq, fun h => congrArg Reading.value h⟩

/-- A report that gives nothing for a field leaves what is known of it as it is. -/
theorem kept_concat_of_silent (hmoves : ¬ map.Moves f x) (h : map.answer? f before x = none) :
    map.kept f (before ++ [x]) = map.kept f before := by
  unfold kept
  rw [collectionAfter_concat, if_neg hmoves, answers_concat, h, Option.toList_none,
    List.append_nil]

theorem news_of_silent (h : map.answer? f before x = none) : map.news f before x = [] := by
  rw [news, h]
  rfl

/-- A field that answers is kept with the value of its reading, and the reading is told if it is
another one than the last. -/
theorem kept_news_of_answer {raw : UInt32} (h : map.answer? f before x = some (f.reading raw)) :
    map.kept f (before ++ [x]) =
        ⟨{ f with collection := map.collectionAfter f (before ++ [x]) },
          some (f.reading raw).value⟩ ∧
      map.news f before x =
        if (map.kept f before).last = some (f.reading raw).value then [] else [f.reading raw] := by
  constructor
  · unfold kept
    rw [answers_concat, h]
    simp
  · rw [news, h]
    by_cases hlast : (map.answers f before).getLast? = some (f.reading raw)
    · simp [last_kept_eq_iff, hlast]
    · simp [last_kept_eq_iff, hlast]

end FieldMap

/-! ### The decoder of a field map -/

/-- A decoder is where the reports bring it. -/
structure Keeps (map : FieldMap) (before : List AnsweredReport) (d : ReportDecoder) : Prop where
  reportLength : d.reportLength = map.reportLength
  unnumbered : d.unnumbered = map.unnumbered
  buttons : d.buttons = map.buttons
  values : d.values = map.values.map fun f => map.kept f before

section Run

open FieldMap

variable {map : FieldMap} {f : ValueField} {d : ReportDecoder} {before : List AnsweredReport}
  {x : AnsweredReport}

/-- The bits of a field, if any collection gives them, and the collection that is asked from then
on. -/
theorem valueAnswer_of_bits {raw : UInt32} (hcarries : carries f.reportId (map.idIn x) = true)
    (h : (map.bitsIn f x (map.collectionAfter f before)).or (map.bitsIn f x 0) = some raw) :
    valueAnswer x.queries ((new map x.queries).bytesOf x.report)
        { f with collection := map.collectionAfter f before } =
      ({ f with collection := map.collectionAfter f (before ++ [x]) }, .ok raw) := by
  unfold valueAnswer
  cases hfirst : map.bitsIn f x (map.collectionAfter f before) with
  | some raw' =>
    obtain rfl : raw' = raw := by simpa [hfirst] using h
    rw [collectionAfter_concat_of_found hfirst]
    simp only [bitsIn_eq_some_iff.mp hfirst]
  | none =>
    have hlast : map.bitsIn f x 0 = some raw := by simpa [hfirst] using h
    have hother : map.collectionAfter f before ≠ 0 := by
      intro hzero
      rw [hzero, hlast] at hfirst
      contradiction
    have hown : map.collectionAfter f before = f.collection :=
      (collectionAfter_eq_or map f before).resolve_left hother
    have hmoves : map.Moves f x := ⟨hcarries, hown ▸ hfirst, by simp [hlast]⟩
    obtain ⟨status, hstatus⟩ := bitsIn_eq_none_iff.mp hfirst
    rw [collectionAfter_concat, if_pos hmoves]
    simp only [hstatus, if_neg hother, bitsIn_eq_some_iff.mp hlast]

/-- A field that no collection gives bits for stays as it is. -/
theorem valueAnswer_of_silent
    (h : (map.bitsIn f x (map.collectionAfter f before)).or (map.bitsIn f x 0) = none) :
    ∃ status, valueAnswer x.queries ((new map x.queries).bytesOf x.report)
        { f with collection := map.collectionAfter f before } =
      ({ f with collection := map.collectionAfter f before }, .error status) := by
  obtain ⟨hfirst, hlast⟩ := Option.or_eq_none_iff.mp h
  obtain ⟨status, hstatus⟩ := bitsIn_eq_none_iff.mp hfirst
  obtain ⟨status', hstatus'⟩ := bitsIn_eq_none_iff.mp hlast
  unfold valueAnswer
  simp only [hstatus, hstatus']
  split
  · exact ⟨status, rfl⟩
  · exact ⟨status', rfl⟩

/-- What a report does to one field and what it says of it. -/
theorem stepValue_kept (map : FieldMap) (f : ValueField) (before : List AnsweredReport)
    (x : AnsweredReport) :
    let step := stepValue x.queries (map.idIn x) ((new map x.queries).bytesOf x.report)
      (map.kept f before)
    step.value = map.kept f (before ++ [x]) ∧ step.readings = map.news f before x := by
  intro step
  have hstep : step = stepValue x.queries (map.idIn x) ((new map x.queries).bytesOf x.report)
    (map.kept f before) := rfl
  have hkept : (map.kept f before).field =
    { f with collection := map.collectionAfter f before } := rfl
  rw [hstep, stepValue, hkept]
  by_cases hcarries : carries f.reportId (map.idIn x) = true
  · rw [if_pos hcarries]
    cases hbits : (map.bitsIn f x (map.collectionAfter f before)).or (map.bitsIn f x 0) with
    | some raw =>
      have hanswer : map.answer? f before x = some (f.reading raw) := by
        rw [answer?, if_pos hcarries, hbits, Option.map_some]
      obtain ⟨hnext, hnews⟩ := kept_news_of_answer hanswer
      rw [hnext, hnews, valueAnswer_of_bits hcarries hbits]
      exact ⟨rfl, rfl⟩
    | none =>
      have hsilent : map.answer? f before x = none := by
        rw [answer?, if_pos hcarries, hbits, Option.map_none]
      have hmoves : ¬ map.Moves f x := fun h => by
        simpa [(Option.or_eq_none_iff.mp hbits).2] using h.2.2
      obtain ⟨status, hstatus⟩ := valueAnswer_of_silent hbits
      rw [kept_concat_of_silent hmoves hsilent, news_of_silent hsilent, hstatus]
      exact ⟨rfl, rfl⟩
  · have hmoves : ¬ map.Moves f x := fun h => hcarries h.1
    have hsilent : map.answer? f before x = none := by rw [answer?, if_neg hcarries]
    rw [if_neg hcarries]
    exact ⟨(kept_concat_of_silent hmoves hsilent).symm, (news_of_silent hsilent).symm⟩

/-- One report: where the decoder is afterwards, and what it says. -/
theorem Keeps.receive (h : Keeps map before d) (x : AnsweredReport) :
    Keeps map (before ++ [x]) (d.receive x).decoder ∧
      (d.receive x).readings = d.edgesOf x ++ map.values.flatMap fun f => map.news f before x := by
  have hid : (Report.frame d.unnumbered x.report.1 x.report.2).1 = map.idIn x := by
    rw [h.unnumbered]
    rfl
  have hbytes : Report.buffer d.reportLength.toNat
      (Report.frame d.unnumbered x.report.1 x.report.2).1
      (Report.frame d.unnumbered x.report.1 x.report.2).2 =
        (new map x.queries).bytesOf x.report := by
    rw [h.reportLength, h.unnumbered]
    rfl
  have hvalues : (d.receive x).decoder.values =
      (d.values.map (stepValue x.queries (map.idIn x) ((new map x.queries).bytesOf x.report))).map
        ValueStep.value := by
    rw [← hid, ← hbytes]
    rfl
  have hreadings : (d.receive x).readings = d.edgesOf x ++
      (d.values.map (stepValue x.queries (map.idIn x)
        ((new map x.queries).bytesOf x.report))).flatMap ValueStep.readings := by
    rw [← hid, ← hbytes]
    rfl
  refine ⟨⟨h.reportLength, h.unnumbered, h.buttons, ?_⟩, ?_⟩
  · rw [hvalues, h.values, List.map_map, List.map_map]
    exact List.map_congr_left fun f _ => (stepValue_kept map f before x).1
  · rw [hreadings, h.values, List.map_map, List.flatMap_map]
    congr 1
    exact List.flatMap_congr fun f _ => (stepValue_kept map f before x).2

/-- A new decoder is at the beginning. -/
theorem keeps_new (map : FieldMap) (queries : ReportQueries) : Keeps map [] (new map queries) :=
  ⟨rfl, rfl, rfl, rfl⟩

theorem keeps_afterAll (map : FieldMap) (queries : ReportQueries) (xs : List AnsweredReport) :
    Keeps map xs ((new map queries).afterAll xs) := by
  induction xs using List.reverseRecOn with
  | nil => exact keeps_new map queries
  | append_singleton xs x ih =>
    rw [afterAll_concat]
    exact (ih.receive x).1

/-- The buttons that are down after a report are those that the host names. -/
theorem Keeps.contains_pressed (h : Keeps map before d) (x : AnsweredReport) (e : Element) :
    (d.receive x).decoder.pressed.contains e = true ↔ (new map x.queries).Names x.report e := by
  have hnames : Names { d with queries := x.queries } x.report e ↔
      (new map x.queries).Names x.report e := by
    simp only [Names, bytesOf, idOf, h.reportLength, h.unnumbered, h.buttons]
    exact Iff.rfl
  exact (contains_pressed_decode { d with queries := x.queries } x.report e).trans hnames

/-- The releases and presses of a run lead from no button to those that are down. -/
theorem replay_edges_afterAll (map : FieldMap) (queries : ReportQueries)
    (xs : List AnsweredReport) :
    replay {} (saidAlong (fun before x => ((new map queries).afterAll before).edgesOf x) [] xs) =
      ((new map queries).afterAll xs).pressed := by
  induction xs using List.reverseRecOn with
  | nil => rfl
  | append_singleton xs x ih =>
    rw [saidAlong_concat, List.nil_append, replay_append, ih, edgesOf, replay_edges,
      afterAll_concat]

/-- **What a run tells.** With each report the decoder tells the releases and presses, and then for
each field, in their order, the reading of this report if it is a new one.

The releases and the presses are each in ascending order, no button stands among them twice, only
buttons that were down are let go and only others are pressed. They lead from the buttons that were
down to those that the host names for this report, which are kept; and all of them, from the first
report on, lead there from no button at all.

Over a run the readings told for a field are those that the reports give for it, without
repetitions. A report that gives none leaves what is kept of the field as it is. -/
theorem run_tells_changes (map : FieldMap) (queries : ReportQueries) (xs : List AnsweredReport)
    (x : AnsweredReport) :
    let d := (new map queries).afterAll xs
    let o := d.receive x
    o.readings = (d.edgesOf x ++ map.values.flatMap fun f => map.news f xs x) ∧
    (∃ ups downs : List Element,
      d.edgesOf x = (ups.map fun e => ⟨e, 0, 0, 1⟩) ++ (downs.map fun e => ⟨e, 1, 0, 1⟩) ∧
      (ups.Pairwise fun a b => compare a b = .lt) ∧
      (downs.Pairwise fun a b => compare a b = .lt) ∧ (ups ++ downs).Nodup ∧
      (∀ e ∈ ups, d.pressed.contains e = true) ∧ ∀ e ∈ downs, d.pressed.contains e = false) ∧
    replay d.pressed (d.edgesOf x) = o.decoder.pressed ∧
    (∀ e, o.decoder.pressed.contains e = true ↔ (new map x.queries).Names x.report e) ∧
    replay {} (saidAlong (fun before x => ((new map queries).afterAll before).edgesOf x) [] xs) =
      d.pressed ∧
    (∀ f, saidAlong (map.news f) [] xs = (map.answers f xs).destutter (· ≠ ·)) ∧
    (d.values.map TrackedValue.last =
      map.values.map fun f => (map.answers f xs).getLast?.map Reading.value) ∧
    ∀ f, map.answer? f xs x = none →
      map.news f xs x = [] ∧ map.answers f (xs ++ [x]) = map.answers f xs := by
  intro d o
  have hkeeps : Keeps map xs d := keeps_afterAll map queries xs
  refine ⟨(hkeeps.receive x).2, ⟨missingFrom d.pressed o.decoder.pressed,
    missingFrom o.decoder.pressed d.pressed, rfl, pairwise_missingFrom _ _,
    pairwise_missingFrom _ _, nodup_missingFrom_append _ _, fun e he => (mem_missingFrom.mp he).1,
    fun e he => (mem_missingFrom.mp he).2⟩, replay_edges _ _, hkeeps.contains_pressed x,
    replay_edges_afterAll map queries xs, fun f => saidAlong_news map f xs, ?_, ?_⟩
  · rw [hkeeps.values, List.map_map]
    rfl
  · intro f hsilent
    refine ⟨news_of_silent hsilent, ?_⟩
    rw [answers_concat, hsilent, Option.toList_none, List.append_nil]

end Run

end PadRouter

import PadRouter.Notice
import PadRouter.Report.FieldValue

/-!
# Decoding reports

Each report is a snapshot of some of the device's elements. The decoder asks for the fields that the
report carries and tells what has changed since the last report.

* `ReportQueries` — the questions that a report is asked.
* `Report.buffer` — the bytes that the questions are about.
* `ReportDecoder` — the fields, the buttons that are down and the last value of each field.
* `ReportDecoder.decode` — releases, presses and new values, in this order.
-/

namespace PadRouter

/-- The questions that a report is asked. A refusal is a status code. -/
structure ReportQueries where
  /-- The usages of one page in one collection that are on. -/
  usages : (report : List UInt8) → (page collection : UInt16) → Except UInt32 (List UInt16)
  /-- The bits of one value. -/
  usageValue : (report : List UInt8) → (page collection usage : UInt16) → Except UInt32 UInt32

instance : Inhabited ReportQueries := ⟨⟨fun _ _ _ => .error 0, fun _ _ _ _ => .error 0⟩⟩

namespace Report

/-- The identifier and the body of a report. A device without identifiers has the identifier 0, and
another first byte belongs to the body. -/
def frame (unnumbered : Bool) (reportId : UInt8) (payload : List UInt8) : UInt8 × List UInt8 :=
  if unnumbered && reportId != 0 then (0, reportId :: payload) else (reportId, payload)

/-- The identifier and the body in a buffer of a given length, cut off or filled up with zeros. The
buffer has room for the identifier in any case. -/
def buffer (length : Nat) (reportId : UInt8) (body : List UInt8) : List UInt8 :=
  let room := max length 1 - 1
  reportId :: (body.take room ++ List.replicate (room - body.length) 0)

end Report

/-- A value field with the value that it had last. -/
structure TrackedValue where
  field : ValueField
  last : Option Int := none
  deriving DecidableEq, Repr, Inhabited

/-- The decoder for the reports of one device. -/
structure ReportDecoder where
  queries : ReportQueries
  reportLength : UInt16
  buttons : List ButtonCapability
  values : List TrackedValue
  unnumbered : Bool
  /-- The buttons that are down. -/
  pressed : Table Element Unit := {}
  deriving Inhabited

/-- What a report has to say, and the decoder after it. -/
structure Decoded (δ : Type) where
  decoder : δ
  readings : List Reading
  notices : List Notice

/-- Whether a field with an identifier is part of the reports with an identifier. -/
def carries (fieldId reportId : UInt8) : Bool := fieldId == 0 || fieldId == reportId

namespace ReportDecoder

/-- The decoder for a field map, before any report. -/
def new (map : FieldMap) (queries : ReportQueries) : ReportDecoder where
  queries := queries
  reportLength := map.reportLength
  buttons := map.buttons
  values := map.values.map fun f => { field := f }
  unnumbered := map.unnumbered

/-- Whether each report begins with its identifier. -/
def expectsReportId (d : ReportDecoder) : Bool := !d.unnumbered

/-! ### Buttons -/

/-- A set of elements. -/
def elementSet (elements : List Element) : Table Element Unit :=
  Table.empty.insertAll (elements.map fun e => (e, ()))

/-- The groups of buttons that a report carries, with what is known about each. -/
def buttonAnswers (d : ReportDecoder) (reportId : UInt8) (report : List UInt8) :
    List (ButtonCapability × Except UInt32 (List UInt16)) :=
  (d.buttons.filter fun b => carries b.reportId reportId).map fun b =>
    (b, d.queries.usages report b.page b.collection)

/-- The buttons that are down according to the answers; groups without an answer have none. -/
def pressedIn (answers : List (ButtonCapability × Except UInt32 (List UInt16))) :
    Table Element Unit :=
  elementSet (answers.flatMap fun a =>
    match a.2 with
    | .ok usages => usages.map fun usage => ⟨a.1.page, usage⟩
    | .error _ => [])

/-- A notice for each group without an answer. -/
def buttonNotices (reportId : UInt8)
    (answers : List (ButtonCapability × Except UInt32 (List UInt16))) : List Notice :=
  answers.filterMap fun a =>
    match a.2 with
    | .ok _ => none
    | .error status => some (.usagesFailed status reportId a.1.page)

/-- The elements of one set that are not in another, in ascending order. -/
def missingFrom (s t : Table Element Unit) : List Element :=
  (s.filter fun e _ => !t.contains e).keys

/-- The releases and presses that lead from one set of buttons to another. -/
def edges (before after : Table Element Unit) : List Reading :=
  (missingFrom before after).map (fun e => ⟨e, 0, 0, 1⟩) ++
    (missingFrom after before).map fun e => ⟨e, 1, 0, 1⟩

/-! ### Values -/

/-- The bits of a field. Where the field's own collection gives no answer collection 0 is asked, and
asked again from then on if it gives one. -/
def valueAnswer (queries : ReportQueries) (report : List UInt8) (f : ValueField) :
    ValueField × Except UInt32 UInt32 :=
  match queries.usageValue report f.page f.collection f.usage with
  | .ok raw => (f, .ok raw)
  | .error status =>
    if f.collection = 0 then (f, .error status)
    else
      match queries.usageValue report f.page 0 f.usage with
      | .ok raw => ({ f with collection := 0 }, .ok raw)
      | .error status => (f, .error status)

/-- What a report says of one field. -/
structure ValueStep where
  value : TrackedValue
  readings : List Reading := []
  notices : List Notice := []

/-- Asks for a field, if the report carries it. There is a reading if the value is a new one. -/
def stepValue (queries : ReportQueries) (reportId : UInt8) (report : List UInt8)
    (v : TrackedValue) : ValueStep :=
  if carries v.field.reportId reportId then
    match valueAnswer queries report v.field with
    | (f, .error status) =>
      { value := { v with field := f }
        notices := [.usageValueFailed status reportId f.page f.usage] }
    | (f, .ok raw) =>
      let r := f.reading raw
      { value := ⟨f, some r.value⟩
        readings := if v.last = some r.value then [] else [r] }
  else { value := v }

/-! ### Reports -/

/-- Decodes a report: what has been let go, what has been pressed, and which values are new. -/
def decode (d : ReportDecoder) (reportId : UInt8) (payload : List UInt8) :
    Decoded ReportDecoder :=
  let (id, body) := Report.frame d.unnumbered reportId payload
  let report := Report.buffer d.reportLength.toNat id body
  let answers := d.buttonAnswers id report
  let pressed := pressedIn answers
  let steps := d.values.map (stepValue d.queries id report)
  { decoder := { d with pressed := pressed, values := steps.map ValueStep.value }
    readings := edges d.pressed pressed ++ steps.flatMap ValueStep.readings
    notices := buttonNotices id answers ++ steps.flatMap ValueStep.notices }

end ReportDecoder

end PadRouter

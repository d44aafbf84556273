import PadRouter.Proofs.Report.Buttons
import PadRouter.Proofs.Watcher.Readings

/-!
# From a read to the questions about it

A read is taken apart into an identifier and a body and put together again, by two modules that
decide on their own whether there is an identifier. What the host is asked about is the read itself,
behind a zero on devices that send no identifier, cut off or filled up to the length of a report.

* `Report.fit` — some bytes, cut off or filled up with zeros; `Report.buffer_eq_fit`.
* `Report.slice?`, `Report.overwrite?`, `Report.fill?` — the buffer filled with every place checked;
  `Report.fill?_eq` says that no check fails.
* `Capabilities.Unnumbered`, `Capabilities.unnumbered_iff` — which devices send no identifier.
* `ReportDecoder.ask`, `ReportDecoder.AsksOnly` — what is asked of some bytes, and that nothing else
  is asked.
* `ReportDecoder.assembled?`, `Reader.handed?` — the way of a payload and of a read, checked too.
* `Watcher.read_is_asked_about_whole` — what is asked about each read of each device that is opened.
-/

namespace PadRouter

/-! ### Buffers -/

namespace Report

/-- The first bytes, with zeros behind where there are too few. -/
def fit (length : Nat) (bytes : List UInt8) : List UInt8 := (bytes.rightpad length 0).take length

/-- The bytes from one place to another; there are none if some of the places do not exist. -/
def slice? (bytes : List UInt8) (start stop : Nat) : Option (List UInt8) :=
  if start ≤ stop ∧ stop ≤ bytes.length then some ((bytes.drop start).take (stop - start)) else none

/-- Bytes put in from one place to another. This fails if some of the places do not exist, or if
there are more or fewer bytes than places. -/
def overwrite? (bytes : List UInt8) (start stop : Nat) (part : List UInt8) : Option (List UInt8) :=
  if start ≤ stop ∧ stop ≤ bytes.length ∧ part.length = stop - start then
    some (bytes.take start ++ part ++ bytes.drop stop)
  else none

/-- A buffer of zeros, the identifier put in front, and as much of the body behind it as there is
room for. -/
def fill? (length : Nat) (reportId : UInt8) (body : List UInt8) : Option (List UInt8) := do
  let zeros := List.replicate (max length 1) 0
  let begun ← overwrite? zeros 0 1 [reportId]
  let count := min body.length (begun.length - 1)
  overwrite? begun 1 (1 + count) (← slice? body 0 count)

variable {length n m : Nat} {id : UInt8} {body bytes : List UInt8}

theorem length_fit (n : Nat) (bytes : List UInt8) : (fit n bytes).length = n := by
  rw [fit, List.rightpad, List.length_take, List.length_append, List.length_replicate]
  omega

/-- What is beyond the length makes no difference. -/
theorem fit_take (h : n ≤ m) (bytes : List UInt8) : fit n (bytes.take m) = fit n bytes := by
  rcases Nat.le_total bytes.length m with hall | hcut
  · rw [List.take_of_length_le hall]
  · have hn : n ≤ (bytes.take m).length := by
      rw [List.length_take]
      omega
    rw [fit, fit, List.rightpad, List.rightpad, List.take_append_of_le_length hn,
      List.take_append_of_le_length (by omega), List.take_take, Nat.min_eq_left h]

theorem buffer_eq_fit (length : Nat) (id : UInt8) (body : List UInt8) :
    buffer length id body = fit (max length 1) (id :: body) := by
  obtain ⟨room, hroom⟩ : ∃ room, max length 1 = room + 1 := ⟨max length 1 - 1, by omega⟩
  have hzeros : room + 1 - (id :: body).length = room - body.length := by
    rw [List.length_cons]
    omega
  have htake : (List.replicate (room - body.length) (0 : UInt8)).take (room - body.length) =
      List.replicate (room - body.length) 0 := List.take_of_length_le (by simp)
  rw [buffer, hroom, Nat.add_sub_cancel, fit, List.rightpad, hzeros, List.cons_append,
    List.take_succ_cons, List.take_append, htake]

theorem slice?_eq {start stop : Nat} (h : start ≤ stop) (h' : stop ≤ bytes.length) :
    slice? bytes start stop = some ((bytes.drop start).take (stop - start)) := if_pos ⟨h, h'⟩

/-- No check fails, whatever the length and however long the body. -/
theorem fill?_eq (length : Nat) (id : UInt8) (body : List UInt8) :
    fill? length id body = some (buffer length id body) := by
  obtain ⟨room, hroom⟩ : ∃ room, max length 1 = room + 1 := ⟨max length 1 - 1, by omega⟩
  have hbegun : overwrite? (List.replicate (room + 1) 0) 0 1 [id] =
      some (id :: List.replicate room 0) := by
    rw [overwrite?, if_pos (by simp)]
    simp
  have hslice : slice? body 0 (min body.length room) = some (body.take room) := by
    rw [slice?_eq (Nat.zero_le _) (Nat.min_le_left _ _), List.drop_zero, Nat.sub_zero,
      Nat.min_comm, ← List.take_eq_take_min]
  have hcount : (body.take room).length = min body.length room := by
    rw [List.length_take, Nat.min_comm]
  have hplaces : 1 ≤ 1 + min body.length room ∧
      1 + min body.length room ≤ (id :: List.replicate room 0).length ∧
      (body.take room).length = 1 + min body.length room - 1 := by
    rw [hcount, List.length_cons, List.length_replicate]
    omega
  have hrest : room - min body.length room = room - body.length := by omega
  simp only [fill?, hroom, hbegun, Option.bind_eq_bind, Option.bind_some, List.length_cons,
    List.length_replicate, Nat.add_sub_cancel, hslice]
  rw [overwrite?, if_pos hplaces, buffer, hroom, Nat.add_sub_cancel, Nat.add_comm 1,
    List.drop_succ_cons, List.drop_replicate, hrest]
  rfl

end Report

/-! ### Devices without identifiers -/

/-- Every report that the descriptor declares has the identifier 0. -/
def Capabilities.Unnumbered (c : Capabilities) : Prop :=
  (∀ b ∈ c.buttons, b.reportId = 0) ∧ ∀ v ∈ c.values, v.reportId = 0

namespace Capabilities

variable {c : Capabilities} {map : FieldMap} {id : UInt8}

/-- The identifiers that the descriptor names, in its own order. -/
def named (c : Capabilities) : List UInt8 :=
  c.buttons.map ButtonCapability.reportId ++ c.values.map ValueCapability.reportId

theorem mem_reportIds : id ∈ c.reportIds ↔ id ∈ c.named := by
  have hall : id ∈ (List.range 256).map UInt8.ofNat :=
    List.mem_map.mpr ⟨id.toNat, List.mem_range.mpr id.toNat_lt, UInt8.ofNat_toNat⟩
  simp only [reportIds, named, List.mem_filter, hall, true_and, List.contains_iff_mem]

theorem unnumbered_iff_named : c.Unnumbered ↔ ∀ id ∈ c.named, id = 0 := by
  simp only [Unnumbered, named, List.mem_append, List.mem_map, or_imp, forall_and,
    forall_exists_index, and_imp, forall_apply_eq_imp_iff₂]

theorem reportIds_eq_iff (h : c.named ≠ []) : c.reportIds = [0] ↔ c.Unnumbered := by
  rw [unnumbered_iff_named]
  constructor
  · intro heq id hid
    have hmem := mem_reportIds.mpr hid
    rwa [heq, List.mem_singleton] at hmem
  · intro hzero
    obtain ⟨first, hfirst⟩ := List.exists_mem_of_ne_nil _ h
    have hcontains (id : UInt8) : c.named.contains id = (id == 0) := by
      rw [Bool.eq_iff_iff, List.contains_iff_mem, beq_iff_eq]
      refine ⟨hzero id, ?_⟩
      rintro rfl
      rwa [hzero first hfirst] at hfirst
    have hfilter : c.reportIds = ((List.range 256).map UInt8.ofNat).filter (· == 0) :=
      List.filter_congr fun id _ => hcontains id
    rw [hfilter]
    decide

theorem reportLength_fieldMap (h : FieldMap.ofCapabilities? c = some map) :
    map.reportLength = c.reportLength := by
  unfold FieldMap.ofCapabilities? at h
  split at h
  · cases h
  · obtain rfl := Option.some.inj h
    rfl

theorem unnumbered_iff (h : FieldMap.ofCapabilities? c = some map) :
    map.unnumbered = true ↔ c.Unnumbered := by
  unfold FieldMap.ofCapabilities? at h
  split at h
  · cases h
  next hsome =>
    obtain rfl := Option.some.inj h
    have hnamed : c.named ≠ [] := by
      rintro hnil
      obtain ⟨hbuttons, hvalues⟩ := List.append_eq_nil_iff.mp hnil
      rw [List.map_eq_nil_iff] at hbuttons hvalues
      exact hsome (by rw [hbuttons, hvalues]; rfl)
    rw [← reportIds_eq_iff hnamed]
    exact decide_eq_true_iff

end Capabilities

/-! ### Questions -/

namespace ReportDecoder

variable {d : ReportDecoder} {id : UInt8} {report : List UInt8}

/-- What the fields that reports with an identifier carry say of some bytes. -/
def ask (d : ReportDecoder) (id : UInt8) (report : List UInt8) : Decoded ReportDecoder :=
  let answers := d.buttonAnswers id report
  let pressed := pressedIn answers
  let steps := d.values.map (stepValue d.queries id report)
  { decoder := { d with pressed := pressed, values := steps.map ValueStep.value }
    readings := edges d.pressed pressed ++ steps.flatMap ValueStep.readings
    notices := buttonNotices id answers ++ steps.flatMap ValueStep.notices }

/-- To decode a report is to ask for the fields of one identifier in one buffer. -/
theorem decode_eq_ask (d : ReportDecoder) (id : UInt8) (payload : List UInt8) :
    d.decode id payload = d.ask (d.idOf (id, payload)) (d.bytesOf (id, payload)) := rfl

/-- A host that says the same of these bytes is as good, whatever it says of others. -/
def AsksOnly (d : ReportDecoder) (id : UInt8) (report : List UInt8) : Prop :=
  ∀ queries : ReportQueries, queries.usages report = d.queries.usages report →
    queries.usageValue report = d.queries.usageValue report →
    let o := ask { d with queries := queries } id report
    o.readings = (d.ask id report).readings ∧ o.notices = (d.ask id report).notices ∧
      o.decoder = { (d.ask id report).decoder with queries := queries }

theorem asksOnly (d : ReportDecoder) (id : UInt8) (report : List UInt8) :
    d.AsksOnly id report := by
  intro queries husages hvalues o
  have hanswers : buttonAnswers { d with queries := queries } id report =
      d.buttonAnswers id report := by
    simp only [buttonAnswers, husages]
  have hsteps : stepValue queries id report = stepValue d.queries id report := by
    funext v
    simp only [stepValue, valueAnswer, hvalues]
  refine ⟨?_, ?_, ?_⟩
  · simp only [o, ask, hanswers, hsteps]
  · simp only [o, ask, hanswers, hsteps]
  · simp only [o, ask, hanswers, hsteps]

/-- The identifier whose fields are asked for and the buffer they are asked about, with every place
checked. -/
def assembled? (d : ReportDecoder) (id : UInt8) (payload : List UInt8) :
    Option (UInt8 × List UInt8) := do
  let (asked, body) := Report.frame d.unnumbered id payload
  return (asked, ← Report.fill? d.reportLength.toNat asked body)

/-- Any payload is put together, and this is what is asked about. -/
theorem assembled?_eq (d : ReportDecoder) (id : UInt8) (payload : List UInt8) :
    d.assembled? id payload = some (d.idOf (id, payload), d.bytesOf (id, payload)) := by
  simp only [assembled?, Report.fill?_eq, Option.bind_eq_bind, Option.bind_some]
  rfl

theorem length_bytesOf (d : ReportDecoder) (report : RawReport) :
    (d.bytesOf report).length = max d.reportLength.toNat 1 := by
  rw [bytesOf, Report.buffer_eq_fit, Report.length_fit]

theorem head?_bytesOf (d : ReportDecoder) (report : RawReport) :
    (d.bytesOf report).head? = some (d.idOf report) := rfl

/-- Without identifiers, a first byte that is no 0 belongs to the body. -/
theorem decode_of_unnumbered (h : d.unnumbered = true) (hid : id ≠ 0) (body : List UInt8) :
    d.decode id body = d.decode 0 (id :: body) := by
  have hframe : Report.frame true id body = Report.frame true 0 (id :: body) := by
    simp [Report.frame, hid]
  rw [decode_eq_ask, decode_eq_ask, idOf, idOf, bytesOf, bytesOf, idOf, idOf, h, hframe]

end ReportDecoder

/-! ### Reads -/

namespace Reader

/-- What the buffer of a reader holds after a read: as many of the bytes as there is room for, over
what it held before. -/
def received (held bytes : List UInt8) : List UInt8 :=
  bytes.take held.length ++ held.drop bytes.length

/-- The identifier and the body in the bytes of a report; without identifiers it is all body. -/
def parts (numbered : Bool) (first : UInt8) (rest : List UInt8) : UInt8 × List UInt8 :=
  if numbered then (first, rest) else (0, first :: rest)

/-- The identifier and the body in the first bytes of a buffer, with every place checked. -/
def parted? (numbered : Bool) (held : List UInt8) (count : Nat) : Option (UInt8 × List UInt8) := do
  let data ← Report.slice? held 0 count
  if numbered then
    let id ← data[0]?
    return (id, ← Report.slice? data 1 data.length)
  else return (0, data)

/-- The way of a read: into the buffer of the reader, apart into an identifier and a body, and into
the buffer that is asked about, with every place checked. -/
def handed? (d : ReportDecoder) (held bytes : List UInt8) : Option (UInt8 × List UInt8) := do
  let (id, body) ← parted? d.expectsReportId (received held bytes) (min bytes.length held.length)
  d.assembled? id body

variable {d : ReportDecoder} {held bytes : List UInt8}

theorem slice?_received (held bytes : List UInt8) :
    Report.slice? (received held bytes) 0 (min bytes.length held.length) =
      some (bytes.take held.length) := by
  have hlength : (bytes.take held.length).length = min bytes.length held.length := by
    rw [List.length_take, Nat.min_comm]
  rw [Report.slice?_eq (Nat.zero_le _), List.drop_zero, Nat.sub_zero, received, ← hlength,
    List.take_left]
  rw [received, List.length_append, hlength]
  omega

theorem parted?_received {b : UInt8} {rest : List UInt8} (h : bytes.take held.length = b :: rest)
    (numbered : Bool) :
    parted? numbered (received held bytes) (min bytes.length held.length) =
      some (parts numbered b rest) := by
  have hbody : Report.slice? (b :: rest) 1 (rest.length + 1) = some rest := by
    rw [Report.slice?, if_pos (by simp)]
    simp
  rw [parted?, slice?_received, h]
  cases numbered with
  | false => rfl
  | true => simp [hbody, parts]

/-- What is asked about a read is what its parts are put together to. -/
theorem decodeRead?_eq_of_parts {b : UInt8} {rest : List UInt8} {room : Nat}
    (hread : bytes.take room = b :: rest) :
    let part := parts d.expectsReportId b rest
    decodeRead? room d bytes = some (d.ask (d.idOf part) (d.bytesOf part)) ∧
      ∀ held : List UInt8, held.length = room →
        handed? d held bytes = some (d.idOf part, d.bytesOf part) := by
  refine ⟨?_, ?_⟩
  · rw [decodeRead?, hread]
    change some (if d.expectsReportId then d.decode b rest else d.decode 0 (b :: rest)) = _
    cases d.expectsReportId <;> rfl
  · rintro held rfl
    rw [handed?, parted?_received hread]
    exact d.assembled?_eq ..

/-- What is asked about a read: the read itself, behind a 0 where there are no identifiers. -/
theorem bytesOf_parts (d : ReportDecoder) (b : UInt8) (rest : List UInt8) {room : Nat}
    (hroom : max d.reportLength.toNat 1 = room + 1) :
    d.bytesOf (parts d.expectsReportId b (rest.take room)) =
      Report.fit (room + 1) (if d.unnumbered then 0 :: b :: rest else b :: rest) := by
  set part := parts d.expectsReportId b (rest.take room) with hparts
  have hnumbered : d.expectsReportId = !d.unnumbered := rfl
  cases hd : d.unnumbered with
  | true =>
    have hpart : part = (0, b :: rest.take room) := by
      simp [hparts, parts, hnumbered, hd]
    have hid : d.idOf part = 0 := d.idOf_of_unnumbered hd part
    -- the reader has kept one byte more than there is room for behind the zero
    have hcut : 0 :: b :: rest.take room = (0 :: b :: rest).take (room + 2) := rfl
    rw [ReportDecoder.bytesOf, hid, Report.buffer_eq_fit, hroom, hpart]
    simp only [Report.frame, bne_self_eq_false, Bool.and_false, Bool.false_eq_true, if_false]
    rw [hcut, Report.fit_take (Nat.le_succ _), if_pos trivial]
  | false =>
    have hpart : part = (b, rest.take room) := by
      simp [hparts, parts, hnumbered, hd]
    have hid : d.idOf part = b := by rw [d.idOf_of_numbered hd part, hpart]
    have hcut : b :: rest.take room = (b :: rest).take (room + 1) := rfl
    rw [ReportDecoder.bytesOf, hid, Report.buffer_eq_fit, hroom, hpart, hd]
    simp only [Report.frame, Bool.false_and, Bool.false_eq_true, if_false]
    rw [hcut, Report.fit_take (Nat.le_refl _)]

/-- Reads change neither the device nor how its reports are put together. -/
theorem shape_afterReads (rd : Reader ReportDecoder) (reads : List Read) :
    let now := rd.afterReads reads
    now.reportLength = rd.reportLength ∧ now.decoder.reportLength = rd.decoder.reportLength ∧
      now.decoder.unnumbered = rd.decoder.unnumbered := by
  induction reads generalizing rd with
  | nil => exact ⟨rfl, rfl, rfl⟩
  | cons r rest ih =>
    have hstep : (rd.read r).1.reportLength = rd.reportLength ∧
        (rd.read r).1.decoder.reportLength = rd.decoder.reportLength ∧
        (rd.read r).1.decoder.unnumbered = rd.decoder.unnumbered := by
      cases r with
      | failure => exact ⟨rfl, rfl, rfl⟩
      | bytes b =>
        rw [read, decodeRead?]
        cases b.take rd.room with
        | nil => exact ⟨rfl, rfl, rfl⟩
        | cons first more =>
          refine ⟨rfl, ?_, ?_⟩ <;> dsimp only <;> split <;> rfl
    obtain ⟨hlength, hdecoder, hunnumbered⟩ := ih (rd.read r).1
    exact ⟨hlength.trans hstep.1, hdecoder.trans hstep.2.1, hunnumbered.trans hstep.2.2⟩

end Reader

/-! ### Devices that are opened -/

namespace Watcher

theorem exists_map_of_make {v : HostView} {l : Listing} {d : ReportDecoder}
    {notices : List Notice} (h : DeviceDecoder.make v l = (some d, notices)) :
    ∃ f c map, v.files.get? l.location = some f ∧ f.capabilities = some c ∧
      FieldMap.ofCapabilities? c = some map ∧ d = .new map f.queries := by
  have hmade := congrArg Prod.fst h
  simp only [DeviceDecoder.make] at hmade
  split at hmade
  next =>
    simp only [DeviceFile.open?] at hmade
    split at hmade
    next f _ hfile =>
      split at hmade
      next =>
        split at hmade
        next => simp at hmade
        next c hc =>
          split at hmade
          next => simp at hmade
          next map hmap => exact ⟨f, c, map, hfile, hc, hmap, (Option.some.inj hmade).symm⟩
      next => simp at hmade
    next => simp at hmade
  next => simp at hmade

/-- Where the reader of a device comes from. -/
theorem exists_map_of_openReader {v : HostView} {l : Listing} {rd : Reader ReportDecoder}
    (h : (openReader v l).1 = some rd) :
    ∃ f c map, v.files.get? l.location = some f ∧ f.capabilities = some c ∧
      FieldMap.ofCapabilities? c = some map ∧
      rd = ⟨l.path, map.reportLength.toNat, .new map f.queries⟩ := by
  rw [openReader] at h
  split at h
  next => simp at h
  next =>
    rw [readerFor] at h
    split at h
    next => simp at h
    next d notices hmake =>
      split at h
      next =>
        obtain rfl := Option.some.inj h
        obtain ⟨f, c, map, hf, hc, hmap, rfl⟩ := exists_map_of_make hmake
        exact ⟨f, c, map, hf, hc, hmap, rfl⟩
      next => simp at h

/-- **A read is asked about as a whole.** Take a device that was opened, and any read of it that is
not empty, after any others. The host is asked about one buffer, as long as a report or one byte
long. Where all reports have the identifier 0 the buffer is a zero and the read behind it, otherwise
it is the read, in both cases cut off or filled up with zeros; the identifier whose fields are asked
for is its first byte. No place beyond a buffer is touched on the way, and none is whatever the
decoder is given to decode. Where all reports have the identifier 0, another identifier is taken as
part of the body. -/
theorem read_is_asked_about_whole (v : HostView) (l : Listing) (rd : Reader ReportDecoder)
    (hrd : (openReader v l).1 = some rd) (past : List Read) (bytes : List UInt8)
    (hbytes : bytes ≠ []) :
    ∃ f c, v.files.get? l.location = some f ∧ f.capabilities = some c ∧
      let now := rd.afterReads past
      let length := max c.reportLength.toNat 1
      (∃ id report,
        Reader.decodeRead? now.room now.decoder bytes = some (now.decoder.ask id report) ∧
          now.decoder.AsksOnly id report ∧
          (∀ held : List UInt8, held.length = now.room →
            Reader.handed? now.decoder held bytes = some (id, report)) ∧
          report.length = length ∧ report.head? = some id ∧
          (c.Unnumbered → report = Report.fit length (0 :: bytes)) ∧
          (¬ c.Unnumbered → report = Report.fit length bytes)) ∧
      (∀ id payload, ∃ asked report,
        now.decoder.assembled? id payload = some (asked, report) ∧
          now.decoder.decode id payload = now.decoder.ask asked report ∧
          now.decoder.AsksOnly asked report ∧ report.length = length ∧ report.head? = some asked) ∧
      (c.Unnumbered → ∀ b rest, b ≠ 0 →
        now.decoder.decode b rest = now.decoder.decode 0 (b :: rest)) := by
  obtain ⟨f, c, map, hf, hc, hmap, rfl⟩ := exists_map_of_openReader hrd
  refine ⟨f, c, hf, hc, ?_⟩
  intro now length
  obtain ⟨hreader, hdecoder, hunnumbered⟩ := Reader.shape_afterReads
    ⟨l.path, map.reportLength.toNat, .new map f.queries⟩ past
  have hlength : max now.decoder.reportLength.toNat 1 = length := by
    rw [hdecoder]
    exact congrArg (fun n : UInt16 => max n.toNat 1) (Capabilities.reportLength_fieldMap hmap)
  have hroom : now.room = length := by
    rw [Reader.room, hreader]
    exact congrArg (fun n : UInt16 => max n.toNat 1) (Capabilities.reportLength_fieldMap hmap)
  have hall : now.decoder.unnumbered = true ↔ c.Unnumbered := by
    rw [hunnumbered]
    exact Capabilities.unnumbered_iff hmap
  refine ⟨?_, fun id payload => ?_, fun h b rest hb => ?_⟩
  · obtain ⟨b, rest, rfl⟩ := List.exists_cons_of_ne_nil hbytes
    obtain ⟨room, hsucc⟩ : ∃ room, length = room + 1 := ⟨length - 1, by omega⟩
    have htake : (b :: rest).take now.room = b :: rest.take room := by
      rw [hroom, hsucc, List.take_succ_cons]
    obtain ⟨hdecode, hhanded⟩ := Reader.decodeRead?_eq_of_parts (d := now.decoder) htake
    have hreport := Reader.bytesOf_parts now.decoder b rest (hlength.trans hsucc)
    refine ⟨_, _, hdecode, now.decoder.asksOnly _ _, hhanded,
      (now.decoder.length_bytesOf _).trans hlength, now.decoder.head?_bytesOf _, ?_, ?_⟩
    · intro hc
      rw [hreport, if_pos (hall.mpr hc), hsucc]
    · intro hc
      rw [hreport, if_neg (mt hall.mp hc), hsucc]
  · exact ⟨_, _, now.decoder.assembled?_eq id payload, now.decoder.decode_eq_ask id payload,
      now.decoder.asksOnly _ _, (now.decoder.length_bytesOf _).trans hlength,
      now.decoder.head?_bytesOf _⟩
  · exact ReportDecoder.decode_of_unnumbered (hall.mpr h) hb rest

/-- A stick without identifiers sends more than a report; what is asked about is a zero and the
first byte of it. -/
theorem long_read_of_stick_is_cut_off :
    ∃ rd : Reader ReportDecoder, (openReader HostView.twoSticks (.stick [0x70])).1 = some rd ∧
      [16, 99, 7] ≠ ([] : List UInt8) ∧
      Reader.decodeRead? rd.room rd.decoder [16, 99, 7] = some (rd.decoder.ask 0 [0, 16]) ∧
      rd.decoder.AsksOnly 0 [0, 16] := by
  have hopened : (openReader HostView.twoSticks (.stick [0x70]) :
      Option (Reader ReportDecoder) × List Notice).1.isSome := by
    decide +kernel
  obtain ⟨rd, hrd⟩ := Option.isSome_iff_exists.mp hopened
  have hne : [16, 99, 7] ≠ ([] : List UInt8) := List.cons_ne_nil 16 [99, 7]
  obtain ⟨f, c, hf, hc, ⟨id, report, hdecode, hasks, -, -, hid, hreport, -⟩, -, -⟩ :=
    read_is_asked_about_whole HostView.twoSticks (.stick [0x70]) rd hrd [] [16, 99, 7] hne
  have hdeclared : (HostView.twoSticks.files.get? (Listing.stick [0x70]).location).bind
      DeviceFile.capabilities =
        some ⟨2, [], [⟨0, Page.desktop, 0, Usage.x, Usage.x, 0, 255, 8⟩]⟩ := by
    decide +kernel
  rw [hf, Option.bind_some, hc] at hdeclared
  obtain rfl := Option.some.inj hdeclared
  obtain rfl : report = [0, 16] := hreport ⟨by simp, by simp⟩
  obtain rfl := Option.some.inj hid
  exact ⟨rd, hrd, hne, hdecode, hasks⟩

end Watcher

end PadRouter

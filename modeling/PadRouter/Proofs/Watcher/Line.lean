import PadRouter.Proofs.Watcher.Poll

/-!
# One device on its own

What a device sends waits in a line until polls take some of it.

* `Reader.readingsOf` — what a decoder makes of some reads, one after the other.
* `Line` — what waits, and whether the device is read at all.
* `Line.portion`, `Line.taken` — what one poll takes, and what each of some polls takes.
* `Reader.drain_eq` — a device is read as its line says.
-/

namespace PadRouter

/-! ### Reads -/

/-- Whether a read brings a report. -/
def Read.isReport : Read → Bool
  | bytes b => !b.isEmpty
  | failure => false

namespace Reader

variable {δ : Type} [DeviceDecoder δ]

/-- What a read leaves behind, and what it says. -/
def read (rd : Reader δ) : Read → Reader δ × List Reading
  | .failure => (rd, [])
  | .bytes b =>
    match decodeRead? rd.room rd.decoder b with
    | none => (rd, [])
    | some now => ({ rd with decoder := now.decoder }, now.readings)

def afterReads (rd : Reader δ) (reads : List Read) : Reader δ :=
  reads.foldl (fun rd r => (rd.read r).1) rd

/-- What some reads say, one after the other. -/
def readingsOf : Reader δ → List Read → List Reading
  | _, [] => []
  | rd, r :: rest => (rd.read r).2 ++ readingsOf (rd.read r).1 rest

theorem afterReads_append (rd : Reader δ) (first later : List Read) :
    rd.afterReads (first ++ later) = (rd.afterReads first).afterReads later :=
  List.foldl_append

theorem readingsOf_append (rd : Reader δ) (first later : List Read) :
    rd.readingsOf (first ++ later) =
      rd.readingsOf first ++ (rd.afterReads first).readingsOf later := by
  induction first generalizing rd with
  | nil => rfl
  | cons r rest ih =>
    rw [List.cons_append, readingsOf, ih, readingsOf, List.append_assoc]
    rfl

theorem path_read (rd : Reader δ) (r : Read) : (rd.read r).1.path = rd.path := by
  unfold read
  split
  · rfl
  · split <;> rfl

theorem path_afterReads (rd : Reader δ) (reads : List Read) :
    (rd.afterReads reads).path = rd.path := by
  induction reads generalizing rd with
  | nil => rfl
  | cons r rest ih => exact (ih _).trans (path_read rd r)

/-- There is room for something, so that only an empty read says nothing. -/
theorem decodeRead?_eq_none_iff (rd : Reader δ) {b : List UInt8} :
    decodeRead? rd.room rd.decoder b = none ↔ (Read.bytes b).isReport = false := by
  obtain ⟨k, hroom⟩ : ∃ k, rd.room = k + 1 := ⟨rd.room - 1, by unfold room; omega⟩
  rw [hroom]
  cases b <;> simp [decodeRead?, Read.isReport]

end Reader

/-! ### What is taken of a line -/

/-- What a device has sent and nobody has read, and whether the device is not read (any more). -/
structure Line where
  unread : List Read
  closed : Bool := false

namespace Line

/-- At most `n` reads; the first one that brings no report is the last one. -/
def portion : Nat → List Read → List Read
  | 0, _ => []
  | _ + 1, [] => []
  | n + 1, r :: rest => if r.isReport then r :: portion n rest else [r]

def take (l : Line) : List Read := if l.closed then [] else portion maxReports l.unread

/-- The line after a poll. A failed read closes it. -/
def next (l : Line) : Line :=
  ⟨l.unread.drop l.take.length, l.closed || decide (Read.failure ∈ l.take)⟩

def send (l : Line) (reads : List Read) : Line := { l with unread := l.unread ++ reads }

end Line

def Sent.on (sent : Sent) (path : List UInt8) : List Read :=
  (sent.filter fun s => s.1 = path).flatMap Prod.snd

/-- What each of some polls takes of the line of a path. A poll that fails takes nothing. -/
def Line.taken (path : List UInt8) : Line → List Moment → List (List Read)
  | _, [] => []
  | l, m :: rest =>
    let l := l.send (m.sent.on path)
    if m.view.refreshFails then [] :: taken path l rest else l.take :: taken path l.next rest

namespace Line

variable {l : Line} {path : List UInt8}

theorem portion_eq_take (n : Nat) (reads : List Read) :
    portion n reads = reads.take (portion n reads).length := by
  induction n generalizing reads with
  | zero => rfl
  | succ n ih =>
    cases reads with
    | nil => rfl
    | cons r rest =>
      rw [portion]
      split
      next => rw [List.length_cons, List.take_succ_cons, ← ih rest]
      next => rfl

theorem length_portion_le (n : Nat) (reads : List Read) : (portion n reads).length ≤ n := by
  induction n generalizing reads with
  | zero => exact Nat.le_refl 0
  | succ n ih =>
    cases reads with
    | nil => exact Nat.zero_le _
    | cons r rest =>
      rw [portion]
      split
      next => exact Nat.succ_le_succ (ih rest)
      next => exact Nat.le_add_left 1 n

/-- All but the last read of a portion bring reports. -/
theorem isReport_of_mem_dropLast {n : Nat} {reads : List Read} {r : Read}
    (hr : r ∈ (portion n reads).dropLast) : r.isReport = true := by
  induction n generalizing reads with
  | zero => simp [portion] at hr
  | succ n ih =>
    cases reads with
    | nil => simp [portion] at hr
    | cons first rest =>
      rw [portion] at hr
      split at hr
      next hfirst =>
        cases hportion : portion n rest with
        | nil => simp [hportion] at hr
        | cons second more =>
          rw [hportion, List.dropLast_cons_of_ne_nil (List.cons_ne_nil second more),
            ← hportion] at hr
          rcases List.mem_cons.mp hr with rfl | hr
          · exact hfirst
          · exact ih hr
      next => simp at hr

/-- Nothing is lost or taken twice by a poll. -/
theorem take_append_next (l : Line) : l.take ++ l.next.unread = l.unread := by
  have htake : l.take = l.unread.take l.take.length := by
    unfold take
    split
    · rfl
    · exact portion_eq_take ..
  rw [next]
  nth_rewrite 1 [htake]
  exact List.take_append_drop ..

theorem mem_taken {moments : List Moment} {t : List Read} (ht : t ∈ l.taken path moments) :
    ∃ n reads, n ≤ maxReports ∧ t = portion n reads := by
  induction moments generalizing l with
  | nil => simp [taken] at ht
  | cons m rest ih =>
    rw [taken] at ht
    split at ht
    next =>
      rcases List.mem_cons.mp ht with rfl | ht
      · exact ⟨0, [], Nat.zero_le _, rfl⟩
      · exact ih ht
    next =>
      rcases List.mem_cons.mp ht with rfl | ht
      · unfold take
        split
        · exact ⟨0, [], Nat.zero_le _, rfl⟩
        · exact ⟨maxReports, _, Nat.le_refl _, rfl⟩
      · exact ih ht

theorem taken_of_closed {moments : List Moment} (hclosed : l.closed = true) :
    ∀ t ∈ l.taken path moments, t = [] := by
  induction moments generalizing l with
  | nil => simp [taken]
  | cons m rest ih =>
    have hsend : (l.send (m.sent.on path)).closed = true := hclosed
    rw [taken]
    split
    next => exact List.forall_mem_cons.mpr ⟨rfl, ih hsend⟩
    next =>
      refine List.forall_mem_cons.mpr ⟨by rw [take, if_pos hsend], ih ?_⟩
      rw [next, hsend, Bool.true_or]

theorem taken_after_failure {moments : List Moment} {before after : List (List Read)}
    {t : List Read} (hsplit : l.taken path moments = before ++ t :: after)
    (hfailed : Read.failure ∈ t) : ∀ u ∈ after, u = [] := by
  induction moments generalizing l before with
  | nil => simp [taken] at hsplit
  | cons m rest ih =>
    rw [taken] at hsplit
    cases before with
    | nil =>
      split at hsplit
      next =>
        obtain ⟨rfl, -⟩ := List.cons.inj hsplit
        simp at hfailed
      next =>
        obtain ⟨rfl, rfl⟩ := List.cons.inj hsplit
        refine taken_of_closed ?_
        rw [next, decide_eq_true hfailed, Bool.or_true]
    | cons first before =>
      split at hsplit
      next => exact ih (List.cons.inj hsplit).2
      next => exact ih (List.cons.inj hsplit).2

end Line

/-- A device is read as its line says. -/
theorem Reader.drain_eq {δ : Type} [DeviceDecoder δ] (rd : Reader δ) (n : Nat)
    (reads : List Read) :
    let drained := drain rd.room n rd.decoder reads
    let taken := Line.portion n reads
    { rd with decoder := drained.decoder } = rd.afterReads taken ∧
      drained.rest = reads.drop taken.length ∧
      drained.readings = rd.readingsOf taken ∧
      drained.failed = decide (Read.failure ∈ taken) := by
  induction n generalizing rd reads with
  | zero => exact ⟨rfl, rfl, rfl, rfl⟩
  | succ n ih =>
    cases reads with
    | nil => exact ⟨rfl, rfl, rfl, rfl⟩
    | cons r rest =>
      cases r with
      | failure => exact ⟨rfl, rfl, rfl, rfl⟩
      | bytes b =>
        cases hdecoded : decodeRead? rd.room rd.decoder b with
        | none =>
          have hempty := rd.decodeRead?_eq_none_iff.mp hdecoded
          have hread : rd.read (.bytes b) = (rd, []) := by simp only [read, hdecoded]
          simp [drain, hdecoded, Line.portion, hempty, afterReads, readingsOf, hread]
        | some now =>
          have hreport : (Read.bytes b).isReport = true := by
            rw [← Bool.not_eq_false, ← rd.decodeRead?_eq_none_iff, hdecoded]
            simp
          have hread : rd.read (.bytes b) = ({ rd with decoder := now.decoder }, now.readings) := by
            simp only [read, hdecoded]
          obtain ⟨hreader, hrest, hreadings, hfailed⟩ :=
            ih { rd with decoder := now.decoder } rest
          simp only [drain, hdecoded, Line.portion, hreport, if_true]
          refine ⟨?_, hrest, ?_, ?_⟩
          · rw [afterReads, List.foldl_cons, hread]
            exact hreader
          · rw [readingsOf, hread]
            exact congrArg _ hreadings
          · rw [show (drain rd.room n now.decoder rest).failed = _ from hfailed]
            simp

theorem Host.queue_later (h : Host) (view : HostView) (sent : Sent) (path : List UInt8) :
    (h.later view sent).queue path = h.queue path ++ sent.on path := by
  change (h.send sent).queue path = _
  induction sent generalizing h with
  | nil => simp [send, Sent.on]
  | cons s rest ih =>
    have hcons : h.send (s :: rest) = (h.setQueue s.1 (h.queue s.1 ++ s.2)).send rest := rfl
    rw [hcons, ih, queue_setQueue]
    by_cases hpath : path = s.1
    · simp [Sent.on, hpath]
    · simp [Sent.on, hpath, Ne.symm hpath]

end PadRouter

import PadRouter.Notice

/-!
# What an operation leaves behind

Operations on pads and on the router are pure. What they would do to the world outside is part of
their outcome.

* `Trace` — the calls on the ports, the notices and the deliveries of one operation, in order.
* `Outcome` — the state afterwards, the result and the trace.
* `Outcome.andThen` — one operation after the other; `Outcome.forEach`, `Outcome.collect` — many.
* `Outcome.forEach_append` — many items in two parts.
* `Outcome.forEach_induction`, `Outcome.collect_induction` — what every step keeps, the whole keeps.
-/

namespace PadRouter

/-- What reached the outside, each kind in its own order. -/
structure Trace where
  calls : List PortCall := []
  notices : List Notice := []
  deliveries : List Delivery := []

namespace Trace

/-- One trace after the other. -/
def append (s t : Trace) : Trace :=
  ⟨s.calls ++ t.calls, s.notices ++ t.notices, s.deliveries ++ t.deliveries⟩

instance : Append Trace := ⟨append⟩

@[simp]
theorem calls_append (s t : Trace) : (s ++ t).calls = s.calls ++ t.calls := rfl

@[simp]
theorem notices_append (s t : Trace) : (s ++ t).notices = s.notices ++ t.notices := rfl

@[simp]
theorem deliveries_append (s t : Trace) : (s ++ t).deliveries = s.deliveries ++ t.deliveries := rfl

theorem append_assoc (s t u : Trace) : s ++ t ++ u = s ++ (t ++ u) := by
  change append (append s t) u = append s (append t u)
  simp only [append, List.append_assoc]

/-- Only calls. -/
def ofCalls (calls : List PortCall) : Trace := { calls := calls }

/-- Only notices. -/
def ofNotices (notices : List Notice) : Trace := { notices := notices }

/-- The deliveries of one activity, with the notices of those listeners that write them. -/
def ofDeliveries (deliveries : List Delivery) : Trace where
  notices := deliveries.filterMap fun d =>
    if d.sink = .logger then some (.activity d.activity) else none
  deliveries := deliveries

/-- The deliveries to listeners that keep what they hear. -/
def heard (t : Trace) : List Delivery := t.deliveries.filter fun d => d.sink == .recorder

end Trace

/-- The state after an operation, its result and its trace. -/
structure Outcome (σ α : Type) where
  state : σ
  result : α
  trace : Trace := {}

namespace Outcome

variable {σ τ α β : Type}

/-- Runs `f` on the state and the result that `o` leaves behind. -/
def andThen (o : Outcome σ α) (f : σ → α → Outcome τ β) : Outcome τ β :=
  let next := f o.state o.result
  ⟨next.state, next.result, o.trace ++ next.trace⟩

/-- Replaces the result by its image. -/
def mapResult (o : Outcome σ α) (f : α → β) : Outcome σ β := ⟨o.state, f o.result, o.trace⟩

/-- Replaces the state by its image. -/
def mapState (o : Outcome σ α) (f : σ → τ) : Outcome τ α := ⟨f o.state, o.result, o.trace⟩

/-- Puts a trace in front. -/
def after (o : Outcome σ α) (t : Trace) : Outcome σ α := ⟨o.state, o.result, t ++ o.trace⟩

/-- Runs `f` on each item in turn, from a state on. -/
def forEach (f : σ → β → Outcome σ Unit) : σ → List β → Outcome σ Unit
  | s, [] => ⟨s, (), {}⟩
  | s, item :: rest => (f s item).andThen fun s _ => forEach f s rest

/-- Many items can be run through in two parts. -/
theorem forEach_append (f : σ → β → Outcome σ Unit) (s : σ) (first later : List β) :
    forEach f s (first ++ later) = (forEach f s first).andThen fun s _ => forEach f s later := by
  induction first generalizing s with
  | nil => rfl
  | cons item rest ih =>
    simp only [List.cons_append, forEach, andThen, ih, Trace.append_assoc]

/-- What each step keeps is kept by all of them. -/
theorem forEach_induction {f : σ → β → Outcome σ Unit} {P : σ → Prop} {l : List β}
    (step : ∀ s, ∀ item ∈ l, P s → P (f s item).state) {s : σ} (h : P s) :
    P (forEach f s l).state := by
  induction l generalizing s with
  | nil => exact h
  | cons item rest ih =>
    have hfirst : P (f s item).state := step s item List.mem_cons_self h
    exact ih (fun s i hi => step s i (List.mem_cons_of_mem _ hi)) hfirst

/-- Runs `f` on each item in turn, from a state on, and puts the results together. -/
def collect (f : σ → β → Outcome σ (List α)) : σ → List β → Outcome σ (List α)
  | s, [] => ⟨s, [], {}⟩
  | s, item :: rest =>
    (f s item).andThen fun s first => (collect f s rest).mapResult fun later => first ++ later

section Collect

variable (f : σ → β → Outcome σ (List α)) (s : σ)

theorem state_collect_cons (item : β) (rest : List β) :
    (collect f s (item :: rest)).state = (collect f (f s item).state rest).state := rfl

theorem result_collect_cons (item : β) (rest : List β) :
    (collect f s (item :: rest)).result =
      (f s item).result ++ (collect f (f s item).state rest).result := rfl

theorem state_collect_append (first later : List β) :
    (collect f s (first ++ later)).state = (collect f (collect f s first).state later).state := by
  induction first generalizing s with
  | nil => rfl
  | cons item rest ih => exact ih (f s item).state

theorem result_collect_append (first later : List β) :
    (collect f s (first ++ later)).result =
      (collect f s first).result ++ (collect f (collect f s first).state later).result := by
  induction first generalizing s with
  | nil => rfl
  | cons item rest ih =>
    rw [List.cons_append, result_collect_cons, ih, result_collect_cons, List.append_assoc]
    rfl

end Collect

/-- What each step keeps is kept by all of them, and what each step's result satisfies in a state
that is kept, all results satisfy. -/
theorem collect_induction {f : σ → β → Outcome σ (List α)} {P : σ → Prop} {Q : α → Prop}
    {l : List β} (step : ∀ s, ∀ item ∈ l, P s → P (f s item).state ∧ ∀ a ∈ (f s item).result, Q a)
    {s : σ} (h : P s) : P (collect f s l).state ∧ ∀ a ∈ (collect f s l).result, Q a := by
  induction l generalizing s with
  | nil => exact ⟨h, fun a ha => by simp [collect] at ha⟩
  | cons item rest ih =>
    obtain ⟨hstate, hresult⟩ := step s item List.mem_cons_self h
    obtain ⟨hstates, hresults⟩ :=
      ih (fun s i hi => step s i (List.mem_cons_of_mem _ hi)) hstate
    refine ⟨hstates, fun a ha => ?_⟩
    rcases List.mem_append.mp ha with ha | ha
    · exact hresult a ha
    · exact hresults a ha

end Outcome

end PadRouter

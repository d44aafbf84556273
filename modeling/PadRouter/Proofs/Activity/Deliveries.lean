import Mathlib.Data.List.Induction
import PadRouter.Activity
import PadRouter.Proofs.Table.Order

/-!
# What each listener hears

* `ActivityBus.Call`, `ActivityBus.run` — the calls to a bus and the state after them.
* `ActivityBus.Delivers` — what some calls deliver when each activity may visit its listeners in any
  order.
* `standing`, `hears` — the listener that has a handle, and what it takes in, told from the calls
  alone.
* `get?_listeners_run` — the bus holds just these listeners.
* `ActivityBus.heard_exactly` — each listener hears what it takes in, once each and in order.
-/

namespace PadRouter.ActivityBus

/-- What can be asked of a bus. -/
inductive Call
  /-- A listener subscribes. It is not muted at first. -/
  | subscribe (s : Subscription)
  | setEnabled (handle : Nat) (on : Bool)
  | unsubscribe (handle : Nat)
  | emit (a : Activity)
  | emitAll (activities : List Activity)

namespace Call

/-- The activities that a call emits, in order. -/
def activities : Call → List Activity
  | emit a => [a]
  | emitAll activities => activities
  | _ => []

/-- Whether a call removes the listener with a handle. -/
def removes (handle : Nat) : Call → Bool
  | unsubscribe h => h == handle
  | _ => false

/-- Whether a call mutes a listener or lets it hear again, if it does either. -/
def turns? (handle : Nat) : Call → Option Bool
  | setEnabled h on => if h = handle then some on else none
  | _ => none

/-- The listener that subscribes, if one does. -/
def newcomer? : Call → Option Subscription
  | subscribe s => some s
  | _ => none

end Call

/-- The bus after a call. -/
def perform (b : ActivityBus) : Call → ActivityBus
  | .subscribe s => b.subscribe { s with enabled := true }
  | .setEnabled handle on => b.setEnabled handle on
  | .unsubscribe handle => b.unsubscribe handle
  | .emit _ | .emitAll _ => b

/-- The bus after some calls. -/
def run (b : ActivityBus) (calls : List Call) : ActivityBus := calls.foldl perform b

/-- The handles that some calls give, in order. -/
def handles : ActivityBus → List Call → List Nat
  | _, [] => []
  | b, call :: rest =>
    (if call.newcomer?.isSome then [b.next] else []) ++ handles (b.perform call) rest

/-- What activities deliver, one after the other, each in some order of its listeners. -/
inductive Sends (b : ActivityBus) : List Activity → List Delivery → Prop
  | nil : Sends b [] []
  | cons {a : Activity} {activities : List Activity} {first later : List Delivery} :
    first.Perm (b.emit a) → Sends b activities later → Sends b (a :: activities) (first ++ later)

/-- What some calls deliver, each emission in some order of the listeners. -/
inductive Delivers : ActivityBus → List Call → List Delivery → Prop
  | nil (b : ActivityBus) : Delivers b [] []
  | cons {b : ActivityBus} {call : Call} {calls : List Call} {first later : List Delivery} :
    b.Sends call.activities first → Delivers (b.perform call) calls later →
      Delivers b (call :: calls) (first ++ later)

/-- What some calls deliver when the listeners are visited in the order of their handles. -/
def deliveries : ActivityBus → List Call → List Delivery
  | _, [] => []
  | b, call :: rest => call.activities.flatMap b.emit ++ deliveries (b.perform call) rest

/-- The activities that some deliveries bring to the listener with a handle. -/
def received (handle : Nat) (ds : List Delivery) : List Activity :=
  (ds.filter fun d => d.listener == handle).map Delivery.activity

/-! ### The calls alone -/

/-- How often listeners subscribe. -/
def subscriptions (calls : List Call) : Nat := calls.countP fun call => call.newcomer?.isSome

/-- The listener that subscribes as the one with this number, and the calls after that. -/
def since : Nat → List Call → Option (Subscription × List Call)
  | _, [] => none
  | n, call :: rest =>
    match call.newcomer?, n with
    | some s, 0 => some (s, rest)
    | some _, n + 1 => since n rest
    | none, n => since n rest

/-- The listener with a handle as it stands after some calls: it has subscribed and has not been
removed since, and it hears unless it was muted last. -/
def standing (handle : Nat) (calls : List Call) : Option Subscription :=
  match since handle calls with
  | some (s, after) =>
    if after.any (Call.removes handle) then none
    else some { s with enabled := (after.filterMap (Call.turns? handle)).getLast?.getD true }
  | none => none

/-- Whether the listener with a handle takes in an activity after some calls: it is there, it is not
muted, the activity is of its slot if it listens to one only, and its filter and its guard let the
activity through. -/
def hears (handle : Nat) (calls : List Call) (a : Activity) : Bool :=
  match standing handle calls with
  | some s =>
    s.enabled && (s.slot.isNone || s.slot == some a.slot) && s.filter.accepts a && s.guard a
  | none => false

/-- The activities that some calls emit, in order, each with all calls before it. -/
def moments : List Call → List Call → List (List Call × Activity)
  | _, [] => []
  | before, call :: rest =>
    call.activities.map (fun a => (before, a)) ++ moments (before ++ [call]) rest

variable {b : ActivityBus} {calls before after : List Call} {call : Call} {handle other : Nat}
  {s : Subscription} {a : Activity} {ds : List Delivery}

theorem subscriptions_cons (call : Call) (calls : List Call) :
    subscriptions (call :: calls) =
      subscriptions calls + if call.newcomer?.isSome then 1 else 0 := by
  simp [subscriptions, List.countP_cons]

theorem subscriptions_concat (calls : List Call) (call : Call) :
    subscriptions (calls ++ [call]) =
      subscriptions calls + if call.newcomer?.isSome then 1 else 0 := by
  simp [subscriptions, List.countP_append, List.countP_cons]

theorem since_cons_of_none (h : call.newcomer? = none) :
    since handle (call :: calls) = since handle calls := by
  simp [since, h]

theorem since_zero_cons (h : call.newcomer? = some s) :
    since 0 (call :: calls) = some (s, calls) := by
  simp [since, h]

theorem since_succ_cons (h : call.newcomer? = some s) :
    since (handle + 1) (call :: calls) = since handle calls := by
  simp [since, h]

theorem since_eq_none_iff : since handle calls = none ↔ subscriptions calls ≤ handle := by
  induction calls generalizing handle with
  | nil => simp [since, subscriptions]
  | cons call calls ih =>
    cases hnew : call.newcomer? with
    | none => simp [since_cons_of_none hnew, subscriptions_cons, hnew, ih]
    | some s =>
      cases handle with
      | zero => simp [since_zero_cons hnew, subscriptions_cons, hnew]
      | succ n => simp [since_succ_cons hnew, subscriptions_cons, hnew, ih]

/-- A listener that has subscribed goes on. -/
theorem since_concat_of_some (h : since handle calls = some (s, after)) (call : Call) :
    since handle (calls ++ [call]) = some (s, after ++ [call]) := by
  induction calls generalizing handle with
  | nil => simp [since] at h
  | cons first calls ih =>
    rw [List.cons_append]
    cases hnew : first.newcomer? with
    | none =>
      rw [since_cons_of_none hnew] at h ⊢
      exact ih h
    | some s' =>
      cases handle with
      | zero =>
        rw [since_zero_cons hnew] at h ⊢
        obtain ⟨rfl, rfl⟩ := Prod.mk.inj (Option.some.inj h)
        rfl
      | succ n =>
        rw [since_succ_cons hnew] at h ⊢
        exact ih h

/-- The next listener to subscribe is the next in number. -/
theorem since_concat_of_none (h : since handle calls = none) (call : Call) :
    since handle (calls ++ [call]) =
      if handle = subscriptions calls then call.newcomer?.map fun s => (s, []) else none := by
  induction calls generalizing handle with
  | nil =>
    cases hnew : call.newcomer? with
    | none => simp [since_cons_of_none hnew, since]
    | some s =>
      cases handle with
      | zero => simp [since_zero_cons hnew, subscriptions]
      | succ n => simp [since_succ_cons hnew, since, subscriptions]
  | cons first calls ih =>
    rw [List.cons_append]
    cases hnew : first.newcomer? with
    | none =>
      rw [since_cons_of_none hnew] at h ⊢
      simpa [subscriptions_cons, hnew] using ih h
    | some s =>
      cases handle with
      | zero => simp [since_zero_cons hnew] at h
      | succ n =>
        rw [since_succ_cons hnew] at h ⊢
        simpa [subscriptions_cons, hnew] using ih h

/-! ### One call -/

theorem get?_setEnabled (b : ActivityBus) (handle other : Nat) (on : Bool) :
    (b.setEnabled handle on).listeners.get? other =
      (b.listeners.get? other).map fun s =>
        if handle = other then { s with enabled := on } else s := by
  simp [setEnabled, Table.get?_modify]

theorem get?_unsubscribe (b : ActivityBus) (handle other : Nat) :
    (b.unsubscribe handle).listeners.get? other =
      if handle = other then none else b.listeners.get? other := by
  simp [unsubscribe, Table.get?_erase]

theorem next_perform (b : ActivityBus) (call : Call) :
    (b.perform call).next = b.next + if call.newcomer?.isSome then 1 else 0 := by
  cases call <;> rfl

/-- The bus mirrors the calls: its listeners are those that stand after them. -/
structure Mirrors (b : ActivityBus) (calls : List Call) : Prop where
  next : b.next = subscriptions calls
  listeners : ∀ handle, b.listeners.get? handle = standing handle calls

theorem mirrors_nil : Mirrors {} [] := ⟨rfl, fun _ => rfl⟩

theorem Mirrors.perform (h : b.Mirrors calls) (call : Call) :
    (b.perform call).Mirrors (calls ++ [call]) where
  next := by rw [next_perform, h.next, subscriptions_concat]
  listeners handle := by
    have hold := h.listeners handle
    rw [standing] at hold ⊢
    cases hs : since handle calls with
    | none =>
      -- only as the next one can the listener come in
      rw [hs] at hold
      rw [since_concat_of_none hs]
      cases call with
      | subscribe s =>
        by_cases heq : handle = subscriptions calls
        · simp [ActivityBus.perform, subscribe, h.next, heq, Call.newcomer?]
        · simpa [ActivityBus.perform, subscribe, Table.get?_insert, h.next, heq] using hold
      | setEnabled other on => simp [ActivityBus.perform, get?_setEnabled, hold, Call.newcomer?]
      | unsubscribe other => simp [ActivityBus.perform, get?_unsubscribe, hold, Call.newcomer?]
      | emit a => simpa [ActivityBus.perform, Call.newcomer?] using hold
      | emitAll activities => simpa [ActivityBus.perform, Call.newcomer?] using hold
    | some entry =>
      obtain ⟨s, after⟩ := entry
      rw [hs] at hold
      rw [since_concat_of_some hs]
      have hlt : handle ≠ subscriptions calls := by
        intro heq
        have hnone : since handle calls = none := since_eq_none_iff.2 (Nat.le_of_eq heq.symm)
        simp [hs] at hnone
      cases call with
      | subscribe s =>
        simpa [ActivityBus.perform, subscribe, Table.get?_insert, h.next, hlt, Call.removes,
          Call.turns?] using hold
      | setEnabled other on =>
        simp only [ActivityBus.perform, get?_setEnabled, hold]
        by_cases hother : other = handle <;> by_cases hgone : after.any (Call.removes handle) <;>
          simp [Call.removes, Call.turns?, hother, hgone]
      | unsubscribe other =>
        simp only [ActivityBus.perform, get?_unsubscribe, hold]
        by_cases hother : other = handle <;> simp [Call.removes, Call.turns?, hother]
      | emit a => simpa [ActivityBus.perform, Call.removes, Call.turns?] using hold
      | emitAll activities => simpa [ActivityBus.perform, Call.removes, Call.turns?] using hold

theorem mirrors_run (calls : List Call) : (run {} calls).Mirrors calls := by
  induction calls using List.reverseRecOn with
  | nil => exact mirrors_nil
  | append_singleton calls call ih =>
    rw [run, List.foldl_append]
    exact ih.perform call

/-- The bus holds the listeners that stand after its calls. -/
theorem get?_listeners_run (calls : List Call) (handle : Nat) :
    (run {} calls).listeners.get? handle = standing handle calls :=
  (mirrors_run calls).listeners handle

theorem handles_eq (b : ActivityBus) (calls : List Call) :
    b.handles calls = List.range' b.next (subscriptions calls) := by
  induction calls generalizing b with
  | nil => rfl
  | cons call calls ih =>
    rw [handles, ih, next_perform, subscriptions_cons]
    split
    · rw [List.range'_succ]
      rfl
    · rfl

/-! ### One activity -/

/-- An activity reaches a listener once, if it is there and receives it. -/
theorem received_emit (b : ActivityBus) (a : Activity) (handle : Nat) :
    received handle (b.emit a) =
      if (b.listeners.get? handle).any (Subscription.receives · a) then [a] else [] := by
  have hfilter : (b.emit a).filter (fun d => d.listener == handle) =
      (b.listeners.entries.filter fun e => e.1 == handle).filterMap fun e =>
        if e.2.receives a then some ⟨e.1, e.2.sink, a⟩ else none := by
    rw [emit, List.filter_filterMap, List.filterMap_filter]
    congr 1
    funext e
    by_cases hkey : e.1 = handle <;> by_cases hreceives : e.2.receives a <;>
      simp [hkey, hreceives, Option.filter]
  rw [received, hfilter, b.listeners.filter_key]
  cases b.listeners.get? handle with
  | none => rfl
  | some s => by_cases hreceives : s.receives a <;> simp [hreceives]

theorem received_append (handle : Nat) (first later : List Delivery) :
    received handle (first ++ later) = received handle first ++ received handle later := by
  simp [received]

/-- In whatever order the listeners are visited, one of them has at most one delivery. -/
theorem received_of_perm (h : ds.Perm (b.emit a)) (handle : Nat) :
    received handle ds = received handle (b.emit a) := by
  have hperm : (received handle ds).Perm (received handle (b.emit a)) := (h.filter _).map _
  rw [received_emit] at hperm ⊢
  split at hperm
  next hany => rw [if_pos hany, List.perm_singleton.1 hperm]
  next hany => rw [if_neg hany, List.perm_nil.1 hperm]

theorem Mirrors.hears_eq (h : b.Mirrors calls) (handle : Nat) (a : Activity) :
    (b.listeners.get? handle).any (Subscription.receives · a) = hears handle calls a := by
  rw [h.listeners, hears]
  cases standing handle calls with
  | none => rfl
  | some s => cases hslot : s.slot <;> simp [Subscription.receives, hslot]

/-! ### Runs -/

theorem Mirrors.received_sends (h : b.Mirrors calls) {activities : List Activity}
    (hds : b.Sends activities ds) (handle : Nat) :
    received handle ds =
      ((activities.map fun a => (calls, a)).filter fun m => hears handle m.1 m.2).map Prod.snd := by
  induction hds with
  | nil => rfl
  | @cons a activities first later hfirst _ ih =>
    rw [received_append, received_of_perm hfirst, received_emit, h.hears_eq, ih, List.map_cons,
      List.filter_cons]
    split <;> rfl

theorem Mirrors.received_delivers (h : b.Mirrors before) (hds : b.Delivers calls ds)
    (handle : Nat) :
    received handle ds =
      ((moments before calls).filter fun m => hears handle m.1 m.2).map Prod.snd := by
  induction hds generalizing before with
  | nil => rfl
  | cons hfirst _ ih =>
    rw [received_append, h.received_sends hfirst, ih (h.perform _), moments, List.filter_append,
      List.map_append]

theorem sends_flatMap (b : ActivityBus) (activities : List Activity) :
    b.Sends activities (activities.flatMap b.emit) := by
  induction activities with
  | nil => exact .nil
  | cons a activities ih => exact .cons (List.Perm.refl _) ih

theorem delivers_deliveries (b : ActivityBus) (calls : List Call) :
    b.Delivers calls (b.deliveries calls) := by
  induction calls generalizing b with
  | nil => exact .nil b
  | cons call calls ih => exact .cons (b.sends_flatMap _) (ih _)

/-- **Each listener hears exactly what it takes in.** In whatever order an activity visits the
listeners, a listener receives the emitted activities, once each and in the order of emission, for
which at that moment it was there and not muted, and its slot, its filter and its guard let them
through. Handles count the subscriptions, so none is given twice. To mute, to enable or to remove a
listener leaves all others as they are, and without a listener of this handle it changes nothing. -/
theorem heard_exactly (calls : List Call) :
    let b := run {} calls
    (∀ ds, Delivers {} calls ds → ∀ handle, received handle ds =
      ((moments [] calls).filter fun m => hears handle m.1 m.2).map Prod.snd) ∧
    Delivers {} calls (deliveries {} calls) ∧
    handles {} calls = List.range (subscriptions calls) ∧
    (∀ handle, b.listeners.contains handle = (standing handle calls).isSome) ∧
    (∀ handle, standing handle calls = none →
      (∀ on, b.setEnabled handle on = b) ∧ b.unsubscribe handle = b) ∧
    ∀ handle other, other ≠ handle →
      (∀ on, (b.setEnabled handle on).listeners.get? other = b.listeners.get? other) ∧
        (b.unsubscribe handle).listeners.get? other = b.listeners.get? other := by
  intro b
  have hget := get?_listeners_run calls
  refine ⟨fun ds hds handle => mirrors_nil.received_delivers hds handle,
    delivers_deliveries {} calls, ?_, fun handle => ?_, fun handle hnone => ?_,
    fun handle other hne => ⟨fun on => ?_, ?_⟩⟩
  · rw [handles_eq, List.range_eq_range']
  · rw [Table.contains, hget]
  · have hall (on : Bool) : (b.setEnabled handle on).listeners = b.listeners := by
      refine Table.ext_get? fun other => ?_
      rw [get?_setEnabled]
      by_cases heq : handle = other
      · rw [← heq, hget, hnone]
        rfl
      · simp [heq]
    have hgone : (b.unsubscribe handle).listeners = b.listeners := by
      refine Table.ext_get? fun other => ?_
      rw [get?_unsubscribe]
      split
      next heq => rw [← heq, hget, hnone]
      next => rfl
    exact ⟨fun on => congrArg (ActivityBus.mk b.next) (hall on),
      congrArg (ActivityBus.mk b.next) hgone⟩
  · rw [get?_setEnabled]
    simp [hne.symm]
  · rw [get?_unsubscribe, if_neg hne.symm]

end PadRouter.ActivityBus

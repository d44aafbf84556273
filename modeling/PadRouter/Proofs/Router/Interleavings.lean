import PadRouter.Proofs.Router.Calls

/-!
# Inputs of different sources

Devices and the keyboard send their inputs side by side. Each pad is fed by one of them only, so the
order in which the inputs of different sources come does not matter.

* `Source`, `Input`, `Pad.FedBy` — who sends an input, and to which pads it goes.
* `Sequences`, `Interleaves` — the inputs of each source in their order, and a list that mixes them.
* `Router.journal` — each input of a list with its result and its calls.
* `Router.Apart` — every pad is fed by one source, and no port has two pads.
* `Router.AgreeOn` — two routers agree on the pads of a source; `Router.agreeOn_own`,
  `Router.agreeOn_other` — what an input of the source, and of another one, does to this.
* `Router.journal_filter` — a source gets what it would get alone.
* `Router.order_between_sources_is_free` — hence all interleavings are as good.
-/

namespace PadRouter

/-- Who sends an input. -/
inductive Source
  | device (location : String)
  | keyboard
  deriving DecidableEq, Repr

/-- A reading of a device, or a key that goes down or up. -/
inductive Input
  | reading (location : String) (reading : Reading)
  | key (down : Bool) (key : Key)
  deriving DecidableEq, Repr

namespace Input

def source : Input → Source
  | .reading location _ => .device location
  | .key _ _ => .keyboard

/-- The input as a command to a router. -/
def command : Input → Router.Command
  | .reading location value => .processHid location value
  | .key true k => .keyDown k
  | .key false k => .keyUp k

end Input

/-- The inputs of each source, in their order. -/
structure Sequences where
  readings : String → List Reading
  keys : List (Bool × Key)

def Sequences.inputs (sequences : Sequences) : Source → List Input
  | .device location => (sequences.readings location).map (.reading location)
  | .keyboard => sequences.keys.map fun e => .key e.1 e.2

/-- The list mixes the sequences and keeps the order inside each. -/
def Interleaves (inputs : List Input) (sequences : Sequences) : Prop :=
  ∀ source, inputs.filter (fun i => i.source = source) = sequences.inputs source

/-- The port that a call is made on. -/
def PortCall.port : PortCall → Port
  | joystick port _ | mouse port _ | delta port _ _ | shake port _ _ => port

/-- The inputs of the source go to the pad. -/
def Pad.FedBy (p : Pad) : Source → Prop
  | .device location => p.location? = some location
  | .keyboard => p.keyMap.isSome = true

namespace Pad

variable {p q : Pad} {source : Source}

theorem Undisturbed.symm (h : p.Undisturbed q) : q.Undisturbed p where
  kind := h.kind.symm
  keyMap := h.keyMap.symm
  device := h.device.symm
  label hq := by
    obtain ⟨hname, hicon⟩ := h.label (h.device.symm.trans hq)
    exact ⟨hname.symm, hicon.symm⟩
  port := h.port.symm

theorem SameSource.fedBy_iff (h : p.SameSource q) : q.FedBy source ↔ p.FedBy source := by
  cases source with
  | device location => rw [FedBy, FedBy, h.location?]
  | keyboard => rw [FedBy, FedBy, h.keyMap]

theorem fedBy_of_bound {maps : KeyMaps} {key : Key} {b : Bindable}
    (h : p.bound? maps key = some b) : p.FedBy .keyboard := by
  obtain ⟨id, hid, -⟩ := Option.bind_eq_some_iff.mp h
  rw [FedBy, hid]
  rfl

theorem port_call (kind : PadKind) (port : Port) (action : Action) :
    (kind.call port action).port = port := by
  cases kind <;> rfl

end Pad

namespace Router

/-! ### One source for each pad -/

/-- Every pad is fed by one source, and no port has two pads. -/
structure Apart (r : Router) : Prop where
  fed : ∀ k p, r.pad? k = some p → ∃ source, p.FedBy source
  single : ∀ k p s t, r.pad? k = some p → p.FedBy s → p.FedBy t → s = t
  ports : ∀ j k p q port, r.pad? j = some p → r.pad? k = some q → p.port = some port →
    q.port = some port → j = k

variable {r s t : Router} {limit slot k : Nat} {p : Pad} {location : String} {reading : Reading}
  {key : Key} {plan : PortPlan} {source : Source} {input : Input} {inputs : List Input} {down : Bool}

theorem Apart.undisturbed (h : r.Apart) (hrs : PadsRel Pad.Undisturbed r s) : s.Apart where
  fed k q hq := by
    obtain ⟨p, hp, hpq⟩ := hrs.exists_left hq
    obtain ⟨source, hfed⟩ := h.fed k p hp
    exact ⟨source, hpq.fedBy_iff.mpr hfed⟩
  single k q s t hq hs ht := by
    obtain ⟨p, hp, hpq⟩ := hrs.exists_left hq
    exact h.single k p s t hp (hpq.fedBy_iff.mp hs) (hpq.fedBy_iff.mp ht)
  ports j k q q' port hq hq' hport hport' := by
    obtain ⟨p, hp, hpq⟩ := hrs.exists_left hq
    obtain ⟨p', hp', hpq'⟩ := hrs.exists_left hq'
    rw [hpq.port] at hport
    rw [hpq'.port] at hport'
    exact h.ports j k p p' port hp hp' hport hport'

theorem keyMap_builtin {b : Pad} (h : builtinPads.get? k = some b) : b.keyMap.isSome = true := by
  have hall : ∀ e ∈ builtinPads.entries, e.2.keyMap.isSome = true := by decide
  exact hall (k, b) (Table.get?_eq_some_iff_mem.mp h)

/-- The built-in pads hang on the keyboard, the others on their devices. -/
theorem apart_of_seated (hseats : r.WellSeated limit) (hports : r.Follows plan) : r.Apart := by
  have hsort : ∀ k p, r.pad? k = some p → (p.keyMap.isSome = true ∧ p.device = none) ∨
      (p.keyMap = none ∧ p.device.isSome = true) := by
    intro k p hp
    cases hbuiltin : builtinPads.get? k with
    | some b =>
      obtain ⟨q, hq, hsame⟩ := hseats.builtin k b hbuiltin
      obtain rfl : q = p := Option.some.inj (hq.symm.trans hp)
      refine .inl ⟨?_, hsame.device.trans (device_builtin hbuiltin)⟩
      rw [hsame.keyMap]
      exact keyMap_builtin hbuiltin
    | none =>
      obtain ⟨-, device, hdevice⟩ := hseats.device k p hp hbuiltin
      exact .inr ⟨hdevice.keyMap, by rw [hdevice.source]; rfl⟩
  refine ⟨fun k p hp => ?_, fun k p s t hp hs ht => ?_, fun j k p q port hp hq hport hport' => ?_⟩
  · rcases hsort k p hp with ⟨hkeys, -⟩ | ⟨-, hdevice⟩
    · exact ⟨.keyboard, hkeys⟩
    · obtain ⟨device, hdevice⟩ := Option.isSome_iff_exists.mp hdevice
      exact ⟨.device device.locationId, by rw [Pad.FedBy, Pad.location?, hdevice]; rfl⟩
  · have hnot : ∀ location, p.FedBy (.device location) → ¬ p.FedBy .keyboard := by
      intro location hlocation hkeys
      rcases hsort k p hp with ⟨-, hnone⟩ | ⟨hnone, -⟩
      · simp [Pad.FedBy, Pad.location?, hnone] at hlocation
      · simp [Pad.FedBy, hnone] at hkeys
    cases s with
    | keyboard =>
      cases t with
      | keyboard => rfl
      | device location => exact absurd hs (hnot location ht)
    | device location =>
      cases t with
      | keyboard => exact absurd ht (hnot location hs)
      | device location' =>
        have hboth : some location = some location' := hs.symm.trans ht
        rw [Option.some.inj hboth]
  · have hj := (hports.serves j p hp port).mp hport
    have hk := (hports.serves k q hq port).mp hport'
    exact Option.some.inj (hj.symm.trans hk)

/-! ### Agreement on a source -/

/-- The routers differ in pads of other sources only, and there not in what sort of pads they are. -/
structure AgreeOn (source : Source) (r s : Router) : Prop where
  rest : { s with pads := r.pads } = r
  pads : PadsRel Pad.Undisturbed r s
  own : ∀ k p, r.pad? k = some p → p.FedBy source → s.pad? k = some p

namespace AgreeOn

theorem refl (source : Source) (r : Router) : AgreeOn source r r :=
  ⟨rfl, (Router.Undisturbed.refl r).pads, fun _ _ hp _ => hp⟩

theorem symm (h : AgreeOn source r s) : AgreeOn source s r where
  rest := by rw [← h.rest]
  pads := fun k => by
    have hk := h.pads k
    generalize r.pad? k = a, s.pad? k = b at hk
    cases hk with
    | some hpq => exact .some hpq.symm
    | none => exact .none
  own k q hq hfed := by
    obtain ⟨p, hp, hpq⟩ := h.pads.exists_left hq
    have hsame := h.own k p hp (hpq.fedBy_iff.mp hfed)
    rw [hq] at hsame
    rw [hp, Option.some.inj hsame]

theorem trans (h₁ : AgreeOn source r s) (h₂ : AgreeOn source s t) : AgreeOn source r t where
  rest := by rw [← h₁.rest, ← h₂.rest]
  pads := .trans (fun _ _ _ => .trans) h₁.pads h₂.pads
  own k p hp hfed := h₂.own k p (h₁.own k p hp hfed) hfed

theorem undisturbed (h : AgreeOn source r s) : r.Undisturbed s where
  slotLimit := by rw [← h.rest]
  reservations := by rw [← h.rest]
  pads := h.pads

/-- The same pad put into the same slot. -/
theorem insert (h : AgreeOn source r s) (slot : Nat) (p : Pad) :
    AgreeOn source { r with pads := r.pads.insert slot p }
      { s with pads := s.pads.insert slot p } where
  rest := by rw [← h.rest]
  pads := fun k => by
    rw [pad?_insert, pad?_insert]
    split
    · exact .some (.refl p)
    · exact h.pads k
  own k q hq hfed := by
    rw [pad?_insert] at hq ⊢
    split at hq
    next hk => rwa [if_pos hk]
    next hk =>
      rw [if_neg hk]
      exact h.own k q hq hfed

theorem foldl_struck (h : AgreeOn source r s) (down : Bool) (l : List Taker) :
    AgreeOn source (l.foldl (struck down) r) (l.foldl (struck down) s) := by
  induction l generalizing r s with
  | nil => exact h
  | cons t rest ih => exact ih (h.insert t.slot _)

theorem getting_eq (h : AgreeOn source r s) (l : List Taker) : s.getting l = r.getting l := by
  have hflag : s.disconnectKeys = r.disconnectKeys := by rw [← h.rest]
  rw [getting, getting, hflag]

/-- Which pads bind a key is a matter of those with key maps only. -/
theorem takers_eq (h : AgreeOn .keyboard r s) (key : Key) : s.takers key = r.takers key := by
  have hkeys : s.keyMaps = r.keyMaps := by rw [← h.rest]
  refine List.filterMap_congr fun port _ => ?_
  unfold taker?
  rw [h.undisturbed.slotOn_eq]
  refine Option.bind_congr fun slot hslot => ?_
  obtain ⟨p, hp, -⟩ := exists_of_slotOn hslot
  obtain ⟨q, hq, hpq⟩ := h.pads.exists_right hp
  rw [hp, hq, Option.bind_some, Option.bind_some, hkeys]
  by_cases hfed : p.FedBy .keyboard
  · have hsame := h.own slot p hp hfed
    rw [hq] at hsame
    rw [Option.some.inj hsame]
  · -- neither pad has a key map
    have hp' : p.keyMap = none := by simpa [Pad.FedBy] using hfed
    have hq' : q.keyMap = none := hpq.keyMap.trans hp'
    simp [Pad.bound?, hp', hq']

end AgreeOn

/-! ### One input -/

theorem state_processHid_of_pad (hslot : r.slotOf? location = some slot)
    (hp : r.pad? slot = some p) (reading : Reading) :
    (r.processHid location reading).state =
      { r with pads := r.pads.insert slot (p.handleReading reading).state } := by
  unfold processHid
  rw [hslot]
  simp only [onPad, hp]
  rfl

theorem state_processHid_of_stray (h : r.slotOf? location = none) (reading : Reading) :
    (r.processHid location reading).state = r := by
  unfold processHid
  rw [h]

theorem perform_key (r : Router) (down : Bool) (key : Key) :
    r.perform (Input.key down key).command = (r.onKey down key).mapResult .flag := by
  cases down <;> rfl

/-- An input of the source itself gives the same in both routers, and they agree as before. -/
theorem agreeOn_own (h : AgreeOn input.source r s) :
    (s.perform input.command).result = (r.perform input.command).result ∧
      (s.perform input.command).trace.calls = (r.perform input.command).trace.calls ∧
      AgreeOn input.source (r.perform input.command).state (s.perform input.command).state := by
  cases input with
  | reading location reading =>
    change Response.actions (s.processHid location reading).result = _ ∧
      (s.processHid location reading).trace.calls = (r.processHid location reading).trace.calls ∧
      AgreeOn _ (r.processHid location reading).state (s.processHid location reading).state
    have hslots := h.undisturbed.sameSources.slotOf?_eq location
    cases hslot : r.slotOf? location with
    | none =>
      rw [hslot] at hslots
      have hr := processHid_of_stray hslot reading
      have hs := processHid_of_stray hslots reading
      rw [hs.1, hs.2, hr.2, state_processHid_of_stray hslot, state_processHid_of_stray hslots]
      exact ⟨congrArg _ hr.1.symm, rfl, h⟩
    | some slot =>
      rw [hslot] at hslots
      obtain ⟨p, hp, hloc⟩ := exists_of_slotOf? hslot
      have hp' := h.own slot p hp hloc
      have hr := processHid_of_pad hslot hp reading
      have hs := processHid_of_pad hslots hp' reading
      rw [hs.1, hs.2, hr.2, state_processHid_of_pad hslot hp, state_processHid_of_pad hslots hp']
      exact ⟨congrArg _ hr.1.symm, rfl, h.insert slot _⟩
  | key down key =>
    have hr := r.onKey_spec down key
    have hs := s.onKey_spec down key
    have htakers : s.takers key = r.takers key := h.takers_eq key
    have hflag : s.disconnectKeys = r.disconnectKeys := by rw [← h.rest]
    rw [perform_key, perform_key]
    refine ⟨congrArg Response.flag ?_, ?_, ?_⟩
    · rw [hs.result, hr.result, hflag, htakers]
    · change (s.onKey down key).trace.calls = (r.onKey down key).trace.calls
      rw [hs.calls, hr.calls, htakers, h.getting_eq]
    · change AgreeOn _ (r.onKey down key).state (s.onKey down key).state
      rw [hs.state, hr.state, htakers, h.getting_eq]
      exact h.foldl_struck down _

theorem undisturbed_input (r : Router) (input : Input) :
    r.Undisturbed (r.perform input.command).state := by
  cases input with
  | reading location reading => exact undisturbed_processHid r location reading
  | key down key =>
    rw [perform_key]
    exact undisturbed_onKey r down key

theorem rest_input (r : Router) (input : Input) :
    { (r.perform input.command).state with pads := r.pads } = r := by
  cases input with
  | reading location reading =>
    change { (r.processHid location reading).state with pads := r.pads } = r
    unfold processHid
    split
    · rfl
    · unfold onPad
      split <;> rfl
  | key down key =>
    have hfold : ∀ (l : List Taker) (s : Router), { s with pads := r.pads } = r →
        { l.foldl (struck down) s with pads := r.pads } = r := by
      intro l
      induction l with
      | nil => exact fun _ hs => hs
      | cons t rest ih => exact fun s hs => ih (struck down s t) hs
    rw [perform_key]
    change { (r.onKey down key).state with pads := r.pads } = r
    rw [(r.onKey_spec down key).state]
    exact hfold _ r rfl

/-- An input of one source does nothing to the pads of another. -/
theorem agreeOn_other (hr : r.Apart) (h : input.source ≠ source) :
    AgreeOn source r (r.perform input.command).state where
  rest := rest_input r input
  pads := (undisturbed_input r input).pads
  own k p hp hfed := by
    cases input with
    | reading location reading =>
      change (r.processHid location reading).state.pad? k = some p
      cases hslot : r.slotOf? location with
      | none => rw [state_processHid_of_stray hslot, hp]
      | some slot =>
        obtain ⟨q, hq, hloc⟩ := exists_of_slotOf? hslot
        have hk : k ≠ slot := by
          rintro rfl
          rw [hq] at hp
          obtain rfl := Option.some.inj hp
          exact h (hr.single k q (.device location) source hq hloc hfed)
        rw [state_processHid_of_pad hslot hq, pad?_insert, if_neg hk, hp]
    | key down key =>
      rw [perform_key]
      change (r.onKey down key).state.pad? k = some p
      rw [pad?_onKey_of_ne, hp]
      rintro t ht rfl
      obtain ⟨hpad, hbound⟩ := spec_of_mem_handlers ht
      rw [hpad] at hp
      obtain rfl := Option.some.inj hp
      exact h (hr.single _ _ .keyboard source hpad (Pad.fedBy_of_bound hbound) hfed)

/-- The calls of an input go to the ports of the pads that its source feeds. -/
theorem port_of_call {call : PortCall} (h : call ∈ (r.perform input.command).trace.calls) :
    ∃ k p, r.pad? k = some p ∧ p.FedBy input.source ∧ p.port = some call.port := by
  cases input with
  | reading location reading =>
    cases owed_of_processHid h with
    | reading hp hloc _ hport _ => exact ⟨_, _, hp, hloc, hport⟩
  | key down key =>
    rw [perform_key] at h
    have howed := owed_of_onKey down h
    cases down with
    | true =>
      cases howed with
      | keyDown hp hport hbound =>
        exact ⟨_, _, hp, Pad.fedBy_of_bound hbound, by rw [Pad.port_call, hport]⟩
    | false =>
      cases howed with
      | keyUp hp hport hbound =>
        exact ⟨_, _, hp, Pad.fedBy_of_bound hbound, by rw [Pad.port_call, hport]⟩

/-! ### Many inputs -/

/-- An input, its result and the calls that it made. -/
structure Entry where
  input : Input
  result : Response
  calls : List PortCall

/-- The router after some inputs. -/
def afterInputs (r : Router) (inputs : List Input) : Router := r.run (inputs.map Input.command)

/-- What came of each of some inputs, in order. -/
def journal : Router → List Input → List Entry
  | _, [] => []
  | r, input :: rest =>
    let o := r.perform input.command
    ⟨input, o.result, o.trace.calls⟩ :: journal o.state rest

/-- The calls on a port in a journal, in order. -/
def callsOn (port : Port) (entries : List Entry) : List PortCall :=
  (entries.flatMap Entry.calls).filter fun call => call.port = port

/-- **A source gets what it would get alone**, and leaves its pads as it would alone. -/
theorem journal_filter (hr : r.Apart) (h : AgreeOn source r s) :
    (r.journal inputs).filter (fun e => e.input.source = source) =
        s.journal (inputs.filter fun i => i.source = source) ∧
      AgreeOn source (r.afterInputs inputs)
        (s.afterInputs (inputs.filter fun i => i.source = source)) := by
  induction inputs generalizing r s with
  | nil => exact ⟨rfl, h⟩
  | cons input rest ih =>
    have hnext : (r.perform input.command).state.Apart :=
      hr.undisturbed (undisturbed_input r input).pads
    by_cases hsource : input.source = source
    · subst hsource
      obtain ⟨hresult, hcalls, hagree⟩ := agreeOn_own h
      obtain ⟨hjournal, hafter⟩ := ih hnext hagree
      rw [List.filter_cons_of_pos (by simp)]
      refine ⟨?_, hafter⟩
      rw [journal, journal, List.filter_cons_of_pos (by simp), hjournal, hresult, hcalls]
    · have hagree := (agreeOn_other hr hsource).symm.trans h
      obtain ⟨hjournal, hafter⟩ := ih hnext hagree
      rw [List.filter_cons_of_neg (by simpa using hsource)]
      refine ⟨?_, hafter⟩
      rw [journal, List.filter_cons_of_neg (by simpa using hsource), hjournal]

theorem undisturbed_inputs (r : Router) (inputs : List Input) :
    r.Undisturbed (r.afterInputs inputs) := by
  induction inputs generalizing r with
  | nil => exact .refl r
  | cons input rest ih => exact (undisturbed_input r input).trans (ih _)

theorem port_of_mem_journal {e : Entry} {call : PortCall} (he : e ∈ r.journal inputs)
    (hcall : call ∈ e.calls) :
    ∃ k p, r.pad? k = some p ∧ p.FedBy e.input.source ∧ p.port = some call.port := by
  induction inputs generalizing r with
  | nil => cases he
  | cons input rest ih =>
    rcases List.mem_cons.mp he with rfl | he
    · exact port_of_call hcall
    · obtain ⟨k, q, hq, hfed, hport⟩ := ih he
      obtain ⟨p, hp, hpq⟩ := (undisturbed_input r input).pads.exists_left hq
      exact ⟨k, p, hp, hpq.fedBy_iff.mp hfed, hpq.port.symm.trans hport⟩

theorem callsOn_filter {port : Port} {entries : List Entry}
    (h : ∀ e ∈ entries, e.input.source ≠ source → ∀ call ∈ e.calls, call.port ≠ port) :
    callsOn port (entries.filter fun e => e.input.source = source) = callsOn port entries := by
  induction entries with
  | nil => rfl
  | cons e rest ih =>
    have hrest := ih fun e he => h e (List.mem_cons_of_mem _ he)
    unfold callsOn at hrest ⊢
    rw [List.flatMap_cons, List.filter_append, ← hrest]
    by_cases hsource : e.input.source = source
    · rw [List.filter_cons_of_pos (by simpa using hsource), List.flatMap_cons, List.filter_append]
    · have hnone : e.calls.filter (fun call => call.port = port) = [] := by
        rw [List.filter_eq_nil_iff]
        intro call hcall
        simpa using h e List.mem_cons_self hsource call hcall
      rw [List.filter_cons_of_neg (by simpa using hsource), hnone, List.nil_append]

/-- Only the source that feeds the pad on a port makes calls on it. -/
theorem exists_feeder (hr : r.Apart) (port : Port) :
    ∃ source, ∀ inputs : List Input,
      callsOn port ((r.journal inputs).filter fun e => e.input.source = source) =
        callsOn port (r.journal inputs) := by
  by_cases hpad : ∃ k p, r.pad? k = some p ∧ p.port = some port
  · obtain ⟨k, p, hp, hport⟩ := hpad
    obtain ⟨source, hfed⟩ := hr.fed k p hp
    refine ⟨source, fun inputs => callsOn_filter fun e he hsource call hcall hon => ?_⟩
    obtain ⟨j, q, hq, hfed', hport'⟩ := port_of_mem_journal he hcall
    rw [hon] at hport'
    obtain rfl := hr.ports j k q p port hq hp hport' hport
    rw [hp] at hq
    obtain rfl := Option.some.inj hq
    exact hsource (hr.single _ _ _ _ hp hfed' hfed)
  · -- without a pad nobody makes calls there
    refine ⟨.keyboard, fun inputs => callsOn_filter fun e he _ call hcall hon => hpad ?_⟩
    obtain ⟨k, p, hp, -, hport⟩ := port_of_mem_journal he hcall
    exact ⟨k, p, hp, by rw [hport, hon]⟩

/-- Routers that agree on every source are the same. -/
theorem eq_of_agreeOn (hr : r.Apart) (h : ∀ source, AgreeOn source r s) : r = s := by
  refine (eq_of_pad? (h .keyboard).rest fun k => ?_).symm
  cases hp : r.pad? k with
  | some p =>
    obtain ⟨source, hfed⟩ := hr.fed k p hp
    exact (h source).own k p hp hfed
  | none =>
    have hk := (h .keyboard).pads k
    rw [hp] at hk
    generalize s.pad? k = b at hk
    cases hk
    rfl

/-- **The order between sources is free.** Take a state that can be reached, a sequence of readings
for each device and one of key events, and two lists that mix them. Both leave the same router
behind; each source gets for each of its inputs the same result and makes the same calls, those that
it would make alone; and both ports see the same calls in the same order. -/
theorem order_between_sources_is_free (c : Config) (register : Register) (cmds : List Command)
    {sequences : Sequences} {inputs others : List Input} (h : Interleaves inputs sequences)
    (h' : Interleaves others sequences) :
    let r := (start c register).state.run cmds
    r.afterInputs inputs = r.afterInputs others ∧
    (∀ source,
      (r.journal inputs).filter (fun e => e.input.source = source) =
          r.journal (sequences.inputs source) ∧
        (r.journal others).filter (fun e => e.input.source = source) =
          r.journal (sequences.inputs source)) ∧
    ∀ port, callsOn port (r.journal inputs) = callsOn port (r.journal others) := by
  intro r
  have hr : r.Apart := apart_of_seated (wellSeated_run (wellSeated_start c register) cmds)
    (follows_run_start c register cmds)
  have halone : ∀ {l : List Input}, Interleaves l sequences → ∀ source,
      (r.journal l).filter (fun e => e.input.source = source) =
          r.journal (sequences.inputs source) ∧
        AgreeOn source (r.afterInputs l) (r.afterInputs (sequences.inputs source)) := by
    intro l hl source
    rw [← hl source]
    exact journal_filter hr (.refl source r)
  refine ⟨?_, fun source => ⟨(halone h source).1, (halone h' source).1⟩, fun port => ?_⟩
  · have hafter : (r.afterInputs inputs).Apart :=
      hr.undisturbed (undisturbed_inputs r inputs).pads
    exact eq_of_agreeOn hafter fun source => (halone h source).2.trans (halone h' source).2.symm
  · obtain ⟨source, hfeeder⟩ := exists_feeder hr port
    rw [← hfeeder inputs, ← hfeeder others, (halone h source).1, (halone h' source).1]

/-! ### A stick and the cursor keys -/

/-- A stick at location `a` gets slot 3 and port 1, the cursor keys drive port 2. -/
def stickAndCursorKeys : List Command :=
  [.arrive ⟨"1", "1", "a", none, none, none, none, false, none, none⟩, .bindPort 3 .one,
    .bindPort 1 .two]

/-- The stick presses fire and lets go, and so does the left cursor key. -/
def fireAndLeft : Sequences where
  readings location := if location = "a" then [.button 1 true, .button 1 false] else []
  keys := [(true, ⟨0x7B, {}⟩), (false, ⟨0x7B, {}⟩)]

theorem fire_and_left_in_any_order :
    let turns : List Input := [.reading "a" (.button 1 true), .key true ⟨0x7B, {}⟩,
      .reading "a" (.button 1 false), .key false ⟨0x7B, {}⟩]
    let keysFirst : List Input := [.key true ⟨0x7B, {}⟩, .key false ⟨0x7B, {}⟩,
      .reading "a" (.button 1 true), .reading "a" (.button 1 false)]
    let r := (start {} .shipped).state.run stickAndCursorKeys
    Interleaves turns fireAndLeft ∧ Interleaves keysFirst fireAndLeft ∧
      r.afterInputs turns = r.afterInputs keysFirst ∧
      (∀ port, (callsOn port (r.journal turns)).length = 2) ∧
      ∀ port, callsOn port (r.journal turns) = callsOn port (r.journal keysFirst) := by
  intro turns keysFirst r
  have hmix : ∀ l : List Input, l.filter (fun i => i.source = .keyboard) =
        fireAndLeft.inputs .keyboard →
      l.filter (fun i => i.source = .device "a") = fireAndLeft.inputs (.device "a") →
      (∀ i ∈ l, i.source = .keyboard ∨ i.source = .device "a") → Interleaves l fireAndLeft := by
    intro l hkeys hstick hsources source
    cases source with
    | keyboard => exact hkeys
    | device location =>
      by_cases hlocation : location = "a"
      · rw [hlocation]
        exact hstick
      · have hnone : fireAndLeft.inputs (.device location) = [] := by
          simp [Sequences.inputs, fireAndLeft, hlocation]
        rw [hnone, List.filter_eq_nil_iff]
        intro i hi
        rcases hsources i hi with hi | hi <;> simp [hi, Ne.symm hlocation]
  have hturns : Interleaves turns fireAndLeft := hmix turns rfl rfl (by decide)
  have hkeysFirst : Interleaves keysFirst fireAndLeft := hmix keysFirst rfl rfl (by decide)
  obtain ⟨hafter, -, hcalls⟩ :=
    order_between_sources_is_free {} .shipped stickAndCursorKeys hturns hkeysFirst
  refine ⟨hturns, hkeysFirst, hafter, fun port => ?_, hcalls⟩
  cases port <;> decide +kernel

end Router

end PadRouter

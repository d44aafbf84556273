import PadRouter.Proofs.Router.Keys
import PadRouter.Proofs.Router.Ports
import PadRouter.Proofs.Router.Seats

/-!
# What reaches the ports

* `Trace.Silent` — a trace that reaches neither a port nor a listener.
* `Router.SendsExactly` — the calls that each input makes on the ports, and nothing else.
* `Router.Owed` — a call that a command may make: to the joystick on a port what a joystick bound to
  it decodes, to the mouse what a mouse bound to it is given.
* `Router.callsOf` — the calls of a run, in order.
* `Router.calls_handleAll` — events that are handled together make the calls of a run.
* `Router.owed_of_mem_callsOf` — every call of a run is owed at its moment.
* `Router.inputs_reach_own_ports` — both, in every state that can be reached.
-/

namespace PadRouter

/-- The trace reaches neither a port nor a listener. -/
structure Trace.Silent (t : Trace) : Prop where
  calls : t.calls = []
  deliveries : t.deliveries = []

namespace Trace.Silent

theorem ofNotices (notices : List Notice) : (Trace.ofNotices notices).Silent := ⟨rfl, rfl⟩

theorem append {s t : Trace} (hs : s.Silent) (ht : t.Silent) : (s ++ t).Silent where
  calls := by rw [Trace.calls_append, hs.calls, ht.calls, List.append_nil]
  deliveries := by rw [Trace.deliveries_append, hs.deliveries, ht.deliveries, List.append_nil]

end Trace.Silent

/-! ### One pad -/

namespace Pad

variable {p : Pad} {reading : Reading}

theorem sendTo_eq (p : Pad) (kind : PadKind) (actions : List Action) :
    p.sendTo kind actions = p.port.toList.flatMap fun port => actions.map (kind.call port) := by
  unfold sendTo
  cases p.port <;> simp

theorem handleReading_of_mouse (h : p.kind = .mouse) : p.handleReading reading = ⟨p, [], {}⟩ := by
  simp only [handleReading, h]

theorem result_handleReading_of_joystick (h : p.kind = .joystick) :
    (p.handleReading reading).result = (p.decoder.decode Axis.classify reading).2.getD [] := by
  simp only [handleReading, h]

theorem calls_handleReading_of_joystick (h : p.kind = .joystick) :
    (p.handleReading reading).trace.calls =
      p.port.toList.flatMap fun port => (p.handleReading reading).result.map (.joystick port) := by
  have hcalls : (p.handleReading reading).trace.calls =
      p.sendTo .joystick (p.handleReading reading).result := by
    simp only [handleReading, h]
  rw [hcalls, sendTo_eq]
  rfl

end Pad

namespace Router

variable {r : Router} {limit slot : Nat} {p : Pad} {location : String} {reading : Reading}
  {key : Key} {call : PortCall} {cmd : Command} {cmds : List Command} {plan : PortPlan}

/-! ### One input -/

theorem processHid_of_stray (h : r.slotOf? location = none) (reading : Reading) :
    (r.processHid location reading).result = [] ∧
      (r.processHid location reading).trace.calls = [] := by
  unfold processHid
  rw [h]
  exact ⟨rfl, rfl⟩

/-- To publish what was sent is no call on a port. -/
theorem calls_publish (r : Router) (slot : Nat) (p : Pad) (actions : List Action) :
    (r.publish slot p actions).calls = [] := by
  unfold publish
  split <;> rfl

theorem processHid_of_pad (hslot : r.slotOf? location = some slot) (hp : r.pad? slot = some p)
    (reading : Reading) :
    (r.processHid location reading).result = (p.handleReading reading).result ∧
      (r.processHid location reading).trace.calls = (p.handleReading reading).trace.calls := by
  unfold processHid
  rw [hslot]
  simp only [onPad, hp]
  refine ⟨rfl, ?_⟩
  simp only [Outcome.mapState, Outcome.andThen, Trace.calls_append, calls_publish, List.append_nil]

theorem mouseButtons_of_mouse (hp : r.pad? slot = some p) (h : p.kind = .mouse)
    (actions : List Action) :
    (r.mouseButtons slot actions).trace.calls =
      p.port.toList.flatMap fun port => actions.map (.mouse port) := by
  have hmouse : p.isMouse = true := by simp [Pad.isMouse, h]
  simp only [mouseButtons, onMouse, onPad, hp, hmouse, Outcome.mapState, if_true, Pad.forward]
  exact p.sendTo_eq .mouse actions

theorem mouseMoved_of_mouse (hp : r.pad? slot = some p) (h : p.kind = .mouse) (dx dy : Float)
    (answer : Bool) :
    (r.mouseMoved slot dx dy answer).result = (r.releaseMouseByShaking && answer) ∧
      (r.mouseMoved slot dx dy answer).trace.calls =
        (if r.releaseMouseByShaking then [.shake .one dx dy] else []) ++
          p.port.toList.map fun port => .delta port dx dy := by
  have hmouse : p.isMouse = true := by simp [Pad.isMouse, h]
  unfold mouseMoved onMouse onPad
  rw [hp]
  simp only [hmouse, if_true]
  refine ⟨rfl, ?_⟩
  simp only [Outcome.mapState, Pad.moveMouse]
  cases p.port <;> rfl

theorem onMouse_of_none (h : ∀ p, r.pad? slot = some p → p.kind ≠ .mouse)
    (f : Pad → Outcome Pad Bool) :
    (r.onMouse slot f).result = false ∧ (r.onMouse slot f).trace.calls = [] := by
  unfold onMouse onPad
  cases hp : r.pad? slot with
  | none => exact ⟨rfl, rfl⟩
  | some p =>
    have hmouse : p.isMouse = false := by simpa [Pad.isMouse] using h p hp
    simp [hmouse, Outcome.mapState]

theorem silent_applyReservations (r : Router) (slot : Nat) :
    (r.applyReservations slot).trace.Silent := by
  simp only [applyReservations, Port.all, Outcome.forEach, Outcome.andThen]
  split <;> split <;> exact ⟨rfl, rfl⟩

theorem silent_handle_arrived (r : Router) (device : Device) :
    (r.handle (.arrived device)).trace.Silent := by
  have hmade : (Pad.ofDevice r.register device).trace.Silent := ⟨rfl, rfl⟩
  have hseat : ∀ slot, (r.seat slot device).trace.Silent := fun slot =>
    (hmade.append (.ofNotices _)).append (silent_applyReservations ..)
  change (r.arrive device).trace.Silent
  unfold arrive
  split
  · exact .ofNotices _
  · split
    · exact .ofNotices _
    · refine Trace.Silent.append (.ofNotices _) ?_
      simp only [findFreeSlot]
      cases r.freeSlot? with
      | none => exact ⟨rfl, rfl⟩
      | some slot => exact hseat slot

theorem slotOn_eq_some_iff (h : r.Follows plan) {port : Port} :
    r.slotOn port = some slot ↔ ∃ p, r.pad? slot = some p ∧ p.port = some port := by
  rw [h.slotOn_eq, Option.filter_eq_some_iff, isUsed_iff]
  constructor
  · rintro ⟨hplan, p, hp⟩
    exact ⟨p, hp, (h.serves slot p hp port).mpr hplan⟩
  · rintro ⟨p, hp, hport⟩
    exact ⟨(h.serves slot p hp port).mp hport, p, hp⟩

theorem mem_takers_iff (h : r.Follows plan) {t : Taker} :
    t ∈ r.takers key ↔ r.pad? t.slot = some t.pad ∧ t.pad.port = some t.port ∧
      t.pad.bound? r.keyMaps key = some t.action := by
  rw [mem_takers, taker?_eq_some_iff, slotOn_eq_some_iff h, Pad.bound?_plain]
  constructor
  · rintro ⟨⟨p, hp, hport⟩, hpad, -, hbound⟩
    rw [hpad] at hp
    obtain rfl := Option.some.inj hp
    exact ⟨hpad, hport, hbound⟩
  · rintro ⟨hpad, hport, hbound⟩
    exact ⟨⟨_, hpad, hport⟩, hpad, rfl, hbound⟩

/-- The calls that inputs make on the ports, in order, and what inputs from nowhere give. -/
structure SendsExactly (r : Router) : Prop where
  /-- A joystick sends what it has decoded to its own port; a mouse decodes nothing. -/
  reading : ∀ location reading k p, r.pad? k = some p → p.location? = some location →
    let o := r.processHid location reading
    (p.kind = .joystick →
      o.result = (p.decoder.decode Axis.classify reading).2.getD [] ∧
        o.trace.calls = p.port.toList.flatMap fun port => o.result.map (.joystick port)) ∧
    (p.kind = .mouse → o.result = [] ∧ o.trace.calls = [])
  stray : ∀ location reading, (∀ k p, r.pad? k = some p → p.location? ≠ some location) →
    (r.processHid location reading).result = [] ∧
      (r.processHid location reading).trace.calls = []
  event : ∀ event, (r.handle event).trace.calls =
    match event with
    | .value location reading => (r.processHid location reading).trace.calls
    | _ => []
  taker : ∀ key t, t ∈ r.takers key ↔ r.pad? t.slot = some t.pad ∧ t.pad.port = some t.port ∧
    t.pad.bound? r.keyMaps key = some t.action
  /-- Each pad that gets a key sends one action to the device of its kind on its own port. -/
  keyDown : ∀ key, (r.keyDown key).trace.calls =
    (r.handlers key).map fun t => t.pad.kind.call t.port t.action.press
  keyUp : ∀ key, (r.keyUp key).trace.calls =
    (r.handlers key).map fun t => t.pad.kind.call t.port (t.pad.held.release t.action).2
  buttons : ∀ slot p, r.pad? slot = some p → p.kind = .mouse → ∀ actions,
    (r.mouseButtons slot actions).trace.calls =
      p.port.toList.flatMap fun port => actions.map (.mouse port)
  /-- The shake detector is asked on port 1, whether or not the mouse is bound. -/
  movement : ∀ slot p, r.pad? slot = some p → p.kind = .mouse → ∀ dx dy answer,
    (r.mouseMoved slot dx dy answer).result = (r.releaseMouseByShaking && answer) ∧
      (r.mouseMoved slot dx dy answer).trace.calls =
        (if r.releaseMouseByShaking then [.shake .one dx dy] else []) ++
          p.port.toList.map fun port => .delta port dx dy
  noMouse : ∀ slot, (∀ p, r.pad? slot = some p → p.kind ≠ .mouse) →
    (∀ actions, (r.mouseButtons slot actions).trace.calls = []) ∧
    ∀ dx dy answer, (r.mouseMoved slot dx dy answer).result = false ∧
      (r.mouseMoved slot dx dy answer).trace.calls = []

theorem sendsExactly (hseats : r.WellSeated limit) (hports : r.Follows plan) : r.SendsExactly where
  reading location reading k p hp hloc := by
    have hslot := hseats.slotOf?_eq_some_iff.mpr ⟨p, hp, hloc⟩
    obtain ⟨hresult, hcalls⟩ := processHid_of_pad hslot hp reading
    refine ⟨fun hkind => ?_, fun hkind => ?_⟩
    · rw [hresult, hcalls]
      exact ⟨Pad.result_handleReading_of_joystick hkind, Pad.calls_handleReading_of_joystick hkind⟩
    · rw [hresult, hcalls, Pad.handleReading_of_mouse hkind]
      exact ⟨rfl, rfl⟩
  stray _ reading h := processHid_of_stray (slotOf?_eq_none_iff.mpr h) reading
  event event := by
    cases event with
    | arrived device => exact (r.silent_handle_arrived device).calls
    | removed location => rfl
    | value location reading => rfl
  taker _ _ := mem_takers_iff hports
  keyDown key := by
    rw [keyDown_eq]
    exact (r.onKey_spec true key).calls
  keyUp key := by
    rw [keyUp_eq]
    exact (r.onKey_spec false key).calls
  buttons _ _ hp hkind actions := mouseButtons_of_mouse hp hkind actions
  movement _ _ hp hkind dx dy answer := mouseMoved_of_mouse hp hkind dx dy answer
  noMouse _ h := ⟨fun _ => (onMouse_of_none h _).2, fun _ _ _ => onMouse_of_none h _⟩

/-! ### Runs -/

/-- A command may make a call on a port. The joystick there gets what a joystick bound to the port
decodes; the mouse gets what a mouse bound to the port decodes or is given; and the detector of the
mouse on port 1 is asked about the movement of any mouse. -/
inductive Owed : Router → Command → PortCall → Prop
  | reading {r : Router} {k : Nat} {p : Pad} {location : String} {reading : Reading} {port : Port}
      {action : Action} :
      r.pad? k = some p → p.location? = some location → p.kind = .joystick → p.port = some port →
      action ∈ (p.decoder.decode Axis.classify reading).2.getD [] →
      Owed r (.processHid location reading) (.joystick port action)
  | keyDown {r : Router} {k : Nat} {p : Pad} {key : Key} {port : Port} {b : Bindable} :
      r.pad? k = some p → p.port = some port → p.bound? r.keyMaps key = some b →
      Owed r (.keyDown key) (p.kind.call port b.press)
  | keyUp {r : Router} {k : Nat} {p : Pad} {key : Key} {port : Port} {b : Bindable} :
      r.pad? k = some p → p.port = some port → p.bound? r.keyMaps key = some b →
      Owed r (.keyUp key) (p.kind.call port (p.held.release b).2)
  | button {r : Router} {k : Nat} {p : Pad} {actions : List Action} {port : Port}
      {action : Action} :
      r.pad? k = some p → p.kind = .mouse → p.port = some port → action ∈ actions →
      Owed r (.mouseButtons k actions) (.mouse port action)
  | movement {r : Router} {k : Nat} {p : Pad} {dx dy : Float} {answer : Bool} {port : Port} :
      r.pad? k = some p → p.kind = .mouse → p.port = some port →
      Owed r (.mouseMoved k dx dy answer) (.delta port dx dy)
  | shake {r : Router} {k : Nat} {p : Pad} {dx dy : Float} {answer : Bool} :
      r.pad? k = some p → p.kind = .mouse → r.releaseMouseByShaking = true →
      Owed r (.mouseMoved k dx dy answer) (.shake .one dx dy)
  | handled {r : Router} {location : String} {reading : Reading} {call : PortCall} :
      Owed r (.processHid location reading) call → Owed r (.handle (.value location reading)) call
  | pumped {r : Router} {before after : List HidEvent} {event : HidEvent} {call : PortCall} :
      Owed (r.handleAll before).state (.handle event) call →
      Owed r (.pump (before ++ event :: after)) call

/-- The calls of some commands, in order. -/
def callsOf : Router → List Command → List PortCall
  | _, [] => []
  | r, cmd :: rest => (r.perform cmd).trace.calls ++ callsOf (r.perform cmd).state rest

theorem callsOf_append (r : Router) (first later : List Command) :
    r.callsOf (first ++ later) = r.callsOf first ++ (r.run first).callsOf later := by
  induction first generalizing r with
  | nil => rfl
  | cons cmd rest ih => rw [List.cons_append, callsOf, ih, callsOf, List.append_assoc, run_cons]

/-- Events that are handled together make the calls of a run that handles one after the other. -/
theorem calls_handleAll (r : Router) (events : List HidEvent) :
    (r.handleAll events).trace.calls = r.callsOf (events.map .handle) := by
  induction events generalizing r with
  | nil => rfl
  | cons event rest ih => exact congrArg _ (ih (r.handle event).state)

theorem owed_of_processHid (h : call ∈ (r.processHid location reading).trace.calls) :
    Owed r (.processHid location reading) call := by
  cases hslot : r.slotOf? location with
  | none =>
    rw [(processHid_of_stray hslot reading).2] at h
    cases h
  | some slot =>
    obtain ⟨p, hp, hloc⟩ := exists_of_slotOf? hslot
    rw [(processHid_of_pad hslot hp reading).2] at h
    cases hkind : p.kind with
    | mouse =>
      rw [Pad.handleReading_of_mouse hkind] at h
      cases h
    | joystick =>
      rw [Pad.calls_handleReading_of_joystick hkind, List.mem_flatMap] at h
      obtain ⟨port, hport, h⟩ := h
      obtain ⟨action, haction, rfl⟩ := List.mem_map.mp h
      rw [Pad.result_handleReading_of_joystick hkind] at haction
      exact .reading hp hloc hkind (Option.mem_toList.mp hport) haction

theorem owed_of_handle {event : HidEvent} (h : call ∈ (r.handle event).trace.calls) :
    Owed r (.handle event) call := by
  cases event with
  | arrived device =>
    rw [(r.silent_handle_arrived device).calls] at h
    cases h
  | removed location => cases h
  | value location reading => exact .handled (owed_of_processHid h)

theorem owed_of_pump {events : List HidEvent} (h : call ∈ (r.handleAll events).trace.calls) :
    Owed r (.pump events) call := by
  suffices ∃ before event after, events = before ++ event :: after ∧
      call ∈ ((r.handleAll before).state.handle event).trace.calls by
    obtain ⟨before, event, after, rfl, hcall⟩ := this
    exact .pumped (owed_of_handle hcall)
  induction events generalizing r with
  | nil => cases h
  | cons event rest ih =>
    rcases List.mem_append.mp h with h | h
    · exact ⟨[], event, rest, rfl, h⟩
    · obtain ⟨before, later, after, rfl, hcall⟩ := ih h
      exact ⟨event :: before, later, after, rfl, hcall⟩

theorem owed_of_onKey (down : Bool) (h : call ∈ (r.onKey down key).trace.calls) :
    Owed r (if down then .keyDown key else .keyUp key) call := by
  rw [(r.onKey_spec down key).calls] at h
  obtain ⟨t, ht, rfl⟩ := List.mem_map.mp h
  obtain ⟨hp, hbound⟩ := spec_of_mem_handlers ht
  have hport := port_of_taker? (mem_takers.mp (mem_of_mem_handlers ht))
  cases down with
  | true => exact .keyDown hp hport hbound
  | false => exact .keyUp hp hport hbound

theorem owed_of_mouseButtons {actions : List Action}
    (h : call ∈ (r.mouseButtons slot actions).trace.calls) :
    Owed r (.mouseButtons slot actions) call := by
  by_cases hmouse : ∀ p, r.pad? slot = some p → p.kind ≠ .mouse
  · rw [mouseButtons, (onMouse_of_none hmouse _).2] at h
    cases h
  · push Not at hmouse
    obtain ⟨p, hp, hkind⟩ := hmouse
    rw [mouseButtons_of_mouse hp hkind, List.mem_flatMap] at h
    obtain ⟨port, hport, h⟩ := h
    obtain ⟨action, haction, rfl⟩ := List.mem_map.mp h
    exact .button hp hkind (Option.mem_toList.mp hport) haction

theorem owed_of_mouseMoved {dx dy : Float} {answer : Bool}
    (h : call ∈ (r.mouseMoved slot dx dy answer).trace.calls) :
    Owed r (.mouseMoved slot dx dy answer) call := by
  by_cases hmouse : ∀ p, r.pad? slot = some p → p.kind ≠ .mouse
  · rw [mouseMoved, (onMouse_of_none hmouse _).2] at h
    cases h
  · push Not at hmouse
    obtain ⟨p, hp, hkind⟩ := hmouse
    rw [(mouseMoved_of_mouse hp hkind dx dy answer).2] at h
    rcases List.mem_append.mp h with h | h
    · split at h
      next hshaking =>
        rw [List.mem_singleton.mp h]
        exact .shake hp hkind hshaking
      next => cases h
    · obtain ⟨port, hport, rfl⟩ := List.mem_map.mp h
      exact .movement hp hkind (Option.mem_toList.mp hport)

/-- Only the inputs make calls on the ports, and only those that are owed. A command to a pad past
the router is not looked at. -/
theorem owed_of_mem_perform (hcmd : ∀ slot pcmd, cmd ≠ .pad slot pcmd)
    (h : call ∈ (r.perform cmd).trace.calls) : Owed r cmd call := by
  cases cmd with
  | arrive device =>
    have hnone : (r.arrive device).trace.calls = [] := (r.silent_handle_arrived device).calls
    simp [perform, Outcome.mapResult, hnone] at h
  | handle event => exact owed_of_handle h
  | pump events => exact owed_of_pump h
  | processHid location reading => exact owed_of_processHid h
  | keyDown key => exact owed_of_onKey true h
  | keyUp key => exact owed_of_onKey false h
  | mouseMoved slot dx dy answer => exact owed_of_mouseMoved h
  | mouseButtons slot actions => exact owed_of_mouseButtons h
  | pad slot pcmd => exact absurd rfl (hcmd slot pcmd)
  | _ => cases h

theorem owed_of_mem_callsOf (hcmds : ∀ slot pcmd, .pad slot pcmd ∉ cmds)
    (h : call ∈ r.callsOf cmds) :
    ∃ before cmd after, cmds = before ++ cmd :: after ∧ Owed (r.run before) cmd call := by
  induction cmds generalizing r with
  | nil => cases h
  | cons cmd rest ih =>
    rcases List.mem_append.mp h with h | h
    · refine ⟨[], cmd, rest, rfl, owed_of_mem_perform (fun slot pcmd => ?_) h⟩
      rintro rfl
      exact hcmds slot pcmd List.mem_cons_self
    · obtain ⟨before, later, after, rfl, howed⟩ :=
        ih (fun slot pcmd hmem => hcmds slot pcmd (List.mem_cons_of_mem _ hmem)) h
      exact ⟨cmd :: before, later, after, rfl, howed⟩

/-- **Inputs reach the ports of their own pads.** In every state that can be reached, each input
makes exactly the calls of `SendsExactly`, in their order. A run makes the calls of its commands one
after the other; so over any run of commands to the router a joystick gets nothing but what a
joystick decoded while it was bound to that port, and a mouse nothing but what came from a mouse
bound to its port or asks the shake detector of port 1. -/
theorem inputs_reach_own_ports (c : Config) (register : Register) (cmds : List Command) :
    let r := (start c register).state.run cmds
    r.SendsExactly ∧
    (∀ events, (r.handleAll events).trace.calls = r.callsOf (events.map .handle)) ∧
    (∀ first later, r.callsOf (first ++ later) = r.callsOf first ++ (r.run first).callsOf later) ∧
    ∀ more : List Command, (∀ slot pcmd, .pad slot pcmd ∉ more) → ∀ call ∈ r.callsOf more,
      ∃ before cmd after, more = before ++ cmd :: after ∧ Owed (r.run before) cmd call := by
  intro r
  have hseats : r.WellSeated (max c.slotLimit.toNat builtinSlots) :=
    wellSeated_run (wellSeated_start c register) cmds
  have hports : r.Follows (portPlan c cmds) := follows_run_start c register cmds
  exact ⟨sendsExactly hseats hports, r.calls_handleAll, r.callsOf_append,
    fun more hmore call hcall => owed_of_mem_callsOf hmore hcall⟩

end Router

end PadRouter

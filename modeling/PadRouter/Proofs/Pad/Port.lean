import PadRouter.Proofs.Router.Calls

/-!
# A pad and its port

The port of a pad says where its actions go, and no more. A pad decodes alike on each port and on
none, however often it is bound anew in between.

* `Pad.Turn`, `Pad.take` — an input of a pad or a change of its port, and what the pad does.
* `Pad.afterTurns`, `Pad.answers`, `Pad.callsOf` — the pad after some turns, what the inputs among
  them return, and the calls that they make.
* `Pad.decoded` — the actions of some turns, as a pad decodes them that is never bound anew, each
  with the port that the changes alone tell.
* `PortCall.action?`, `received` — the actions that the joystick or the mouse on a port gets, and
  `callFor?` — the call that brings it one.
* `Pad.port_has_no_say` — a pad that is bound anew decodes like one that is not, and each port gets
  what was decoded in its time.
-/

namespace PadRouter

/-! ### What a device on a port gets -/

/-- The action that a call brings to the device of a kind on a port, if it brings it one. -/
def PortCall.action? (kind : PadKind) (port : Port) : PortCall → Option Action
  | joystick dest action => if kind = .joystick ∧ dest = port then some action else none
  | mouse dest action => if kind = .mouse ∧ dest = port then some action else none
  | delta _ _ _ | shake _ _ _ => none

/-- The call that brings an action to the device of a kind, if there is a port. -/
def callFor? (kind : PadKind) (e : Option Port × Action) : Option PortCall :=
  e.1.map fun port => kind.call port e.2

/-- The actions that the device of a kind on a port gets by some calls, in order. -/
def received (kind : PadKind) (port : Port) (calls : List PortCall) : List Action :=
  calls.filterMap (PortCall.action? kind port)

theorem action?_call (kind other : PadKind) (port dest : Port) (action : Action) :
    (other.call dest action).action? kind port =
      if kind = other ∧ dest = port then some action else none := by
  cases other <;> rfl

theorem filterMap_callFor? (kind : PadKind) (port : Option Port) (actions : List Action) :
    (actions.map fun action => (port, action)).filterMap (callFor? kind) =
      port.toList.flatMap fun dest => actions.map (kind.call dest) := by
  rw [List.filterMap_map]
  cases port with
  | none => simp [callFor?, Function.comp_def]
  | some dest => simp [callFor?, Function.comp_def]

/-- The device of a kind on a port gets what is sent there to its kind. -/
theorem received_filterMap_callFor? (kind other : PadKind) (port : Port)
    (entries : List (Option Port × Action)) :
    received kind port (entries.filterMap (callFor? other)) =
      if kind = other then (entries.filter fun e => e.1 = some port).map Prod.snd else [] := by
  induction entries with
  | nil => simp [received]
  | cons e rest ih =>
    obtain ⟨dest?, action⟩ := e
    rw [received] at ih ⊢
    cases dest? with
    | none =>
      have hcall : callFor? other (none, action) = none := rfl
      rw [List.filterMap_cons_none hcall, ih]
      simp
    | some dest =>
      have hcall : callFor? other (some dest, action) = some (other.call dest action) := rfl
      rw [List.filterMap_cons_some hcall, List.filterMap_cons, ih, action?_call]
      by_cases hkind : kind = other <;> by_cases hport : dest = port <;> simp [hkind, hport]

namespace Pad

/-- An input of a pad, or a change of its port. -/
inductive Turn
  | reading (reading : Reading)
  /-- A key goes down or up; the tables are those of the moment. -/
  | key (down : Bool) (maps : KeyMaps) (key : Key)
  | rebind (port : Option Port)

namespace Turn

/-- Whether the turn is an input. -/
def isInput : Turn → Bool
  | rebind _ => false
  | _ => true

/-- The port after a turn. -/
def port (old : Option Port) : Turn → Option Port
  | rebind new => new
  | _ => old

end Turn

/-- What a pad does in a turn. -/
def take (p : Pad) : Turn → Outcome Pad Response
  | .reading r => (p.handleReading r).mapResult .actions
  | .key down maps k => (p.onKey down maps k).mapResult .flag
  | .rebind port => ⟨p.setPort port, .done, {}⟩

/-- The pad after some turns. -/
def afterTurns (p : Pad) (turns : List Turn) : Pad :=
  turns.foldl (fun p turn => (p.take turn).state) p

/-- What the inputs among some turns return, in order. -/
def answers : Pad → List Turn → List Response
  | _, [] => []
  | p, turn :: rest =>
    (if turn.isInput then [(p.take turn).result] else []) ++ answers (p.take turn).state rest

/-- The calls of some turns, in order. -/
def callsOf : Pad → List Turn → List PortCall
  | _, [] => []
  | p, turn :: rest => (p.take turn).trace.calls ++ callsOf (p.take turn).state rest

/-- The actions that a pad decodes in a turn. -/
def decodes (p : Pad) : Turn → List Action
  | .reading r =>
    match p.kind with
    | .mouse => []
    | .joystick => (p.decoder.decode Axis.classify r).2.getD []
  | .key down maps k => ((p.bound? maps k).map fun b => (p.held.strike down b).2).toList
  | .rebind _ => []

/-- The actions of some turns, each with the port of its moment. The pad that decodes keeps the port
that it has; the port of the moment is told by the changes alone. -/
def decoded : Option Port → Pad → List Turn → List (Option Port × Action)
  | _, _, [] => []
  | port, p, turn :: rest =>
    (p.decodes turn).map (fun action => (port, action)) ++
      decoded (turn.port port) (if turn.isInput then (p.take turn).state else p) rest

variable {p : Pad} {port : Option Port} {turn : Turn} {turns : List Turn}

/-! ### One turn -/

/-- Decoding does not look at the port. -/
theorem decodes_setPort (p : Pad) (port : Option Port) (turn : Turn) :
    (p.setPort port).decodes turn = p.decodes turn := by
  cases turn <;> rfl

theorem onKey_setPort (p : Pad) (port : Option Port) (down : Bool) (maps : KeyMaps) (k : Key) :
    ((p.setPort port).onKey down maps k).result = (p.onKey down maps k).result ∧
      ((p.setPort port).onKey down maps k).state = (p.onKey down maps k).state.setPort port := by
  have hsame : (p.setPort port).bound? maps k = p.bound? maps k := rfl
  cases hbound : p.bound? maps k with
  | none =>
    rw [onKey_of_unbound hbound, onKey_of_unbound (hsame.trans hbound)]
    exact ⟨rfl, rfl⟩
  | some b =>
    obtain ⟨notices, hkey⟩ := onKey_of_bound hbound down
    obtain ⟨notices', hkey'⟩ := onKey_of_bound (hsame.trans hbound) down
    rw [hkey, hkey']
    exact ⟨rfl, rfl⟩

/-- An input returns the same on every port, and leaves the same pad behind but for the port. -/
theorem take_setPort (h : turn.isInput = true) (p : Pad) (port : Option Port) :
    ((p.setPort port).take turn).result = (p.take turn).result ∧
      ((p.setPort port).take turn).state = (p.take turn).state.setPort port := by
  cases turn with
  | reading r =>
    cases hkind : p.kind with
    | mouse =>
      have hkind' : (p.setPort port).kind = .mouse := hkind
      simp only [take, handleReading_of_mouse hkind, handleReading_of_mouse hkind',
        Outcome.mapResult, and_self]
    | joystick =>
      have hkind' : (p.setPort port).kind = .joystick := hkind
      simp only [take, Outcome.mapResult, result_handleReading_of_joystick hkind,
        result_handleReading_of_joystick hkind']
      refine ⟨rfl, ?_⟩
      simp only [handleReading, hkind, hkind']
      rfl
  | key down maps k =>
    obtain ⟨hresult, hstate⟩ := onKey_setPort p port down maps k
    exact ⟨congrArg Response.flag hresult, hstate⟩
  | rebind new => cases h

/-- A pad sends what it decodes to the device of its own kind, if it has a port. -/
theorem calls_take (p : Pad) (turn : Turn) :
    (p.take turn).trace.calls =
      p.port.toList.flatMap fun port => (p.decodes turn).map (p.kind.call port) := by
  cases turn with
  | reading r =>
    change (p.handleReading r).trace.calls = _
    cases hkind : p.kind with
    | mouse =>
      rw [handleReading_of_mouse hkind]
      simp [decodes, hkind]
    | joystick =>
      rw [calls_handleReading_of_joystick hkind, result_handleReading_of_joystick hkind]
      simp only [decodes, hkind]
      rfl
  | key down maps k =>
    change (p.onKey down maps k).trace.calls = _
    cases hbound : p.bound? maps k with
    | none =>
      rw [onKey_of_unbound hbound]
      simp [decodes, hbound]
    | some b =>
      obtain ⟨notices, hkey⟩ := onKey_of_bound hbound down
      rw [hkey, decodes, hbound]
      exact p.sendTo_eq p.kind _
  | rebind new => simp [take, decodes]

theorem kind_take (p : Pad) (turn : Turn) : (p.take turn).state.kind = p.kind := by
  cases turn with
  | reading r => exact (undisturbed_handleReading p r).kind
  | key down maps k => exact (undisturbed_onKey down maps k p).kind
  | rebind new => rfl

/-! ### Many turns -/

/-- A pad that is bound anew now and then, against one that never is. -/
theorem turns_setPort (p : Pad) (port : Option Port) (turns : List Turn) :
    (p.setPort port).answers turns = p.answers (turns.filter Turn.isInput) ∧
    (p.setPort port).afterTurns turns =
      (p.afterTurns (turns.filter Turn.isInput)).setPort (turns.foldl Turn.port port) ∧
    (p.setPort port).callsOf turns = (decoded port p turns).filterMap (callFor? p.kind) := by
  induction turns generalizing p port with
  | nil => exact ⟨rfl, rfl, rfl⟩
  | cons turn rest ih =>
    have hcalls : ((p.setPort port).take turn).trace.calls =
        ((p.decodes turn).map fun action => (port, action)).filterMap (callFor? p.kind) := by
      rw [calls_take, decodes_setPort, filterMap_callFor?]
      rfl
    by_cases hinput : turn.isInput = true
    · obtain ⟨hresult, hstate⟩ := take_setPort hinput p port
      obtain ⟨hanswers, hafter, hlater⟩ := ih (p.take turn).state port
      have hport : turn.port port = port := by cases turn <;> first | rfl | cases hinput
      rw [kind_take] at hlater
      rw [List.filter_cons_of_pos hinput]
      refine ⟨?_, ?_, ?_⟩
      · rw [answers, answers, hstate, hresult, hanswers]
      · rw [afterTurns, List.foldl_cons, hstate, List.foldl_cons, hport]
        exact hafter
      · rw [callsOf, hstate, hlater, hcalls, decoded, if_pos hinput, hport, List.filterMap_append]
    · -- the port changes, and the pad that is never bound anew waits
      cases turn with
      | reading r => exact absurd rfl hinput
      | key down maps k => exact absurd rfl hinput
      | rebind new =>
        obtain ⟨hanswers, hafter, hlater⟩ := ih p new
        rw [List.filter_cons_of_neg hinput]
        exact ⟨hanswers, hafter, hlater⟩

/-- **The port has no say in decoding.** Take any pad and any inputs, with changes of its port in
between. Every input returns what it would return without the changes, and the pad that is left
differs in its port only: held keys and history are the same. The calls are the actions decoded, in
order, each to the device of the pad's kind on the port of its moment; so that device on a port gets
exactly what was decoded while the pad was bound there, and the other device gets nothing. -/
theorem port_has_no_say (p : Pad) (turns : List Turn) :
    let inputs := turns.filter Turn.isInput
    p.answers turns = p.answers inputs ∧
    p.afterTurns turns = (p.afterTurns inputs).setPort (turns.foldl Turn.port p.port) ∧
    p.callsOf turns = (decoded p.port p turns).filterMap (callFor? p.kind) ∧
    ∀ kind port, received kind port (p.callsOf turns) =
      if kind = p.kind then
        ((decoded p.port p turns).filter fun e => e.1 = some port).map Prod.snd
      else [] := by
  intro inputs
  obtain ⟨hanswers, hafter, hcalls⟩ := p.turns_setPort p.port turns
  have hcalls' : p.callsOf turns = (decoded p.port p turns).filterMap (callFor? p.kind) := hcalls
  refine ⟨hanswers, hafter, hcalls', fun kind port => ?_⟩
  rw [hcalls', received_filterMap_callFor?]

end Pad

end PadRouter

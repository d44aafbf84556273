import PadRouter.Proofs.Router.Ports

/-!
# Requests about ports, one after the other

To bind a slot or to leave a port alone goes through all pads and both reservations. What comes of
many requests is a matter of the plan alone: in a state that can be reached, the plan and whatever
is not about ports decide everything.

* `Router.withoutPorts` — a router with all that is about ports taken away; no request changes it.
* `Router.Follows.eq_of_withoutPorts` — a router is given by this and by its plan.
* `Router.Follows.run_requests_congr` — requests that come to the same plan come to the same state.
* `Router.LeftAlone` — a port that no pad has and no slot waits for.
* `Router.requests_go_by_plan` — which requests repeat, commute with or undo each other.
-/

namespace PadRouter

namespace PortPlan

variable {plan : PortPlan} {s t : Nat} {p q : Port}

/-- To bind a slot to a port twice is to do it once. -/
theorem serve_bind_self (plan : PortPlan) (slot : Nat) (port : Port) :
    (plan.serve (.bind slot port)).serve (.bind slot port) = plan.serve (.bind slot port) := by
  funext q
  by_cases hq : q = port
  · simp [serve, hq]
  · by_cases hplan : plan q = some slot <;> simp [serve, hq, hplan]

/-- Different slots may be bound to different ports in any order. -/
theorem serve_bind_comm (hslot : s ≠ t) (hport : p ≠ q) :
    (plan.serve (.bind s p)).serve (.bind t q) = (plan.serve (.bind t q)).serve (.bind s p) := by
  funext port
  by_cases hp : port = p
  · have hq : port ≠ q := fun h => hport (hp.symm.trans h)
    simp [serve, hp, hport, hslot]
  · by_cases hq : port = q
    · simp [serve, hq, hport.symm, hslot.symm]
    · -- a third port loses both slots, whichever goes first
      by_cases hs : plan port = some s <;> by_cases ht : plan port = some t <;>
        simp [serve, hp, hq, hs, ht]

/-- A slot that is bound to the one port and then to the other keeps the other. -/
theorem serve_bind_other (plan : PortPlan) (slot : Nat) (port : Port) :
    let moved := (plan.serve (.bind slot port)).serve (.bind slot port.other)
    moved port = none ∧ moved port.other = some slot := by
  have hne : port ≠ port.other := by cases port <;> decide
  simp [serve, hne]

end PortPlan

theorem PortRequest.portRequest?_command (request : PortRequest) :
    request.command.portRequest? = some request := by
  cases request <;> rfl

/-- Pads that serve one plan in one slot and differ in their ports only are the same. -/
theorem Pad.Serves.eq_of_setPort {p q : Pad} {plan : PortPlan} {k : Nat} (hp : p.Serves plan k)
    (hq : q.Serves plan k) (h : p.setPort none = q.setPort none) : p = q := by
  have hport : p.port = q.port := Option.ext fun port => (hp port).trans (hq port).symm
  have hput : ∀ r : Pad, (r.setPort none).setPort r.port = r := fun _ => rfl
  rw [← hput p, h, hport, hput q]

/-- Reservations are given by the slots that wait for the ports. -/
theorem Reservations.ext_get {a b : Reservations} (h : ∀ port, a.get port = b.get port) :
    a = b := by
  have hone : a.one = b.one := h .one
  have htwo : a.two = b.two := h .two
  cases a
  cases b
  simp_all

namespace Router

/-- The router with all that is about ports taken away: no pad has one and none is reserved. -/
def withoutPorts (r : Router) : Router :=
  { r with pads := r.pads.map fun _ p => p.setPort none, reservations := {} }

/-- No pad is on the port and no slot waits for it. -/
structure LeftAlone (r : Router) (port : Port) : Prop where
  noPad : ∀ k p, r.pad? k = some p → p.port ≠ some port
  unreserved : r.reservations.get port = none

variable {r s : Router} {plan : PortPlan} {port : Port}

/-! ### What is not about ports -/

theorem pad?_withoutPorts (r : Router) (k : Nat) :
    r.withoutPorts.pad? k = (r.pad? k).map fun p => p.setPort none :=
  Table.get?_map ..

theorem isUsed_withoutPorts (r : Router) (k : Nat) : r.withoutPorts.isUsed k = r.isUsed k := by
  change (r.withoutPorts.pad? k).isSome = (r.pad? k).isSome
  rw [pad?_withoutPorts, Option.isSome_map]

theorem withoutPorts_bindPort (r : Router) (slot : Nat) (port : Port) :
    (r.bindPort slot port).state.withoutPorts = r.withoutPorts := by
  refine eq_of_pad? rfl fun k => ?_
  rw [pad?_withoutPorts, pad?_bindPort, pad?_withoutPorts, Option.map_map]
  congr 1
  funext p
  by_cases hk : slot = k <;> by_cases hp : p.port = some port <;> simp [hk, hp, Pad.setPort]

theorem withoutPorts_unbindPort (r : Router) (port : Port) :
    (r.unbindPort port).withoutPorts = r.withoutPorts := by
  refine eq_of_pad? rfl fun k => ?_
  rw [pad?_withoutPorts, pad?_unbindPort, pad?_withoutPorts, Option.map_map]
  congr 1
  funext p
  by_cases hp : p.port = some port <;> simp [hp, Pad.setPort]

/-- No request changes anything that is not about ports. -/
theorem withoutPorts_requests (r : Router) (requests : List PortRequest) :
    (r.run (requests.map PortRequest.command)).withoutPorts = r.withoutPorts := by
  refine run_induction (P := fun s => s.withoutPorts = r.withoutPorts) (fun s cmd hcmd hs => ?_) rfl
  obtain ⟨request, -, rfl⟩ := List.mem_map.mp hcmd
  cases request with
  | bind slot port => exact (withoutPorts_bindPort s slot port).trans hs
  | leave port => exact (withoutPorts_unbindPort s port).trans hs

/-! ### The plan decides -/

theorem Follows.run_requests (h : r.Follows plan) (requests : List PortRequest) :
    (r.run (requests.map PortRequest.command)).Follows (requests.foldl PortPlan.serve plan) := by
  have hrun := follows_run h (requests.map PortRequest.command)
  have hsame : Command.portRequest? ∘ PortRequest.command = some :=
    funext PortRequest.portRequest?_command
  rwa [List.filterMap_map, hsame, List.filterMap_some] at hrun

/-- Routers that follow one plan and differ in what is about ports only are the same. -/
theorem Follows.eq_of_withoutPorts (hr : r.Follows plan) (hs : s.Follows plan)
    (h : s.withoutPorts = r.withoutPorts) : s = r := by
  refine eq_of_pad? ?_ fun k => ?_
  · have hreserved : s.reservations = r.reservations :=
      Reservations.ext_get fun port => (hs.reserved port).trans (hr.reserved port).symm
    have hrest : ({ s.withoutPorts with pads := r.pads, reservations := r.reservations } : Router) =
        r := by rw [h]; rfl
    rw [← hreserved] at hrest
    exact hrest
  · have hpads : (s.pad? k).map (fun p => p.setPort none) =
        (r.pad? k).map fun p => p.setPort none := by
      rw [← pad?_withoutPorts, h, pad?_withoutPorts]
    cases hq : s.pad? k with
    | none =>
      rw [hq, Option.map_none, eq_comm, Option.map_eq_none_iff] at hpads
      exact hpads.symm
    | some q =>
      rw [hq, Option.map_some, eq_comm, Option.map_eq_some_iff] at hpads
      obtain ⟨p, hp, hpq⟩ := hpads
      rw [hp, (hr.serves k p hp).eq_of_setPort (hs.serves k q hq) hpq]

/-- Requests that come to the same plan come to the same state. -/
theorem Follows.run_requests_congr (h : r.Follows plan) (requests others : List PortRequest)
    (hplan : requests.foldl PortPlan.serve plan = others.foldl PortPlan.serve plan) :
    r.run (requests.map PortRequest.command) = r.run (others.map PortRequest.command) := by
  have hrequests := h.run_requests requests
  rw [hplan] at hrequests
  refine (h.run_requests others).eq_of_withoutPorts hrequests ?_
  rw [withoutPorts_requests, withoutPorts_requests]

theorem Follows.leftAlone (h : r.Follows plan) (hport : plan port = none) : r.LeftAlone port where
  noPad k p hp hbound := by
    have hplanned := (h.serves k p hp port).mp hbound
    rw [hport] at hplanned
    cases hplanned
  unreserved := (h.reserved port).trans hport

/-- **Requests go by the plan.** In every state that can be reached, for all slots, occupied or not:
to bind a slot to a port twice is to do it once; different slots may be bound to the two ports in
either order; a slot that is bound to the one port and then to the other leaves the one alone and
has the other; and a port that is given up after it was bound is left alone. No request changes
anything that is not about ports, and any two lists of requests that come to the same plan come to
the same state. -/
theorem requests_go_by_plan (c : Config) (register : Register) (cmds : List Command) :
    let r := (start c register).state.run cmds
    (∀ slot port, ((r.bindPort slot port).state.bindPort slot port).state =
      (r.bindPort slot port).state) ∧
    (∀ s t, s ≠ t → ((r.bindPort s .one).state.bindPort t .two).state =
      ((r.bindPort t .two).state.bindPort s .one).state) ∧
    (∀ slot port, let moved := ((r.bindPort slot port).state.bindPort slot port.other).state
      moved.LeftAlone port ∧ moved.reservations.get port.other = some slot ∧
        moved.slotOn port.other = if r.isUsed slot then some slot else none) ∧
    (∀ slot port, ((r.bindPort slot port).state.unbindPort port).LeftAlone port) ∧
    (∀ slot port, (r.bindPort slot port).state.withoutPorts = r.withoutPorts ∧
      (r.unbindPort port).withoutPorts = r.withoutPorts) ∧
    ∀ requests others : List PortRequest,
      requests.foldl PortPlan.serve (portPlan c cmds) =
        others.foldl PortPlan.serve (portPlan c cmds) →
      r.run (requests.map PortRequest.command) = r.run (others.map PortRequest.command) := by
  intro r
  have hr : r.Follows (portPlan c cmds) := follows_run_start c register cmds
  refine ⟨fun slot port => ?_, fun s t hst => ?_, fun slot port => ?_, fun slot port => ?_,
    fun slot port => ?_, hr.run_requests_congr⟩
  · exact hr.run_requests_congr [.bind slot port, .bind slot port] [.bind slot port]
      (PortPlan.serve_bind_self _ slot port)
  · exact hr.run_requests_congr [.bind s .one, .bind t .two] [.bind t .two, .bind s .one]
      (PortPlan.serve_bind_comm hst (by decide))
  · intro moved
    have hmoved := (hr.bindPort slot port).bindPort slot port.other
    obtain ⟨hleft, htaken⟩ := PortPlan.serve_bind_other (portPlan c cmds) slot port
    have hused : moved.isUsed slot = r.isUsed slot := by
      rw [← isUsed_withoutPorts, withoutPorts_bindPort, withoutPorts_bindPort, isUsed_withoutPorts]
    refine ⟨hmoved.leftAlone hleft, (hmoved.reserved _).trans htaken, ?_⟩
    rw [hmoved.slotOn_eq, htaken, Option.filter_some, hused]
  · exact ((hr.bindPort slot port).unbindPort port).leftAlone (if_pos rfl)
  · exact ⟨withoutPorts_bindPort r slot port, withoutPorts_unbindPort r port⟩

end Router

end PadRouter

import PadRouter.Proofs.Router.Command

/-!
# Who holds a port

The port of a pad is kept in the pad and, as a reservation of its slot, in the router. The requests
to bind and to leave ports alone decide both.

* `PortRequest`, `PortPlan.serve`, `portPlan` — the slot that each port is reserved for, computed
  from the requests of a run.
* `Pad.Serves` — a pad is bound to the port that its slot is planned for.
* `Router.Follows` — a router agrees with a plan: its reservations are the plan, no slot is planned
  for two ports, and every pad is bound to the port that its slot is planned for.
* `Router.follows_perform` — every command keeps the agreement.
* `Router.port_iff_planned` — after every run each pad is bound exactly to the port that its slot is
  reserved for.
-/

namespace PadRouter

/-- A wish about a port. -/
inductive PortRequest
  | bind (slot : Nat) (port : Port)
  | leave (port : Port)
  deriving DecidableEq, Repr

/-- The slot that each port is reserved for. -/
abbrev PortPlan := Port → Option Nat

namespace PortPlan

/-- What a request makes of a plan. A slot that is bound to a port loses the other one. -/
def serve (plan : PortPlan) : PortRequest → PortPlan
  | .bind slot port => fun q =>
    if q = port then some slot else if plan q = some slot then none else plan q
  | .leave port => fun q => if q = port then none else plan q

/-- No slot is planned for two ports. -/
def Exclusive (plan : PortPlan) : Prop :=
  ∀ p q slot, plan p = some slot → plan q = some slot → p = q

variable {plan : PortPlan} {slot : Nat} {port : Port}

theorem exclusive_serve (h : plan.Exclusive) (request : PortRequest) :
    (plan.serve request).Exclusive := by
  cases request with
  | bind slot port =>
    intro p q k hp hq
    simp only [serve] at hp hq
    by_cases hpp : p = port <;> by_cases hqp : q = port
    · rw [hpp, hqp]
    · grind
    · grind
    · refine h p q k ?_ ?_ <;> grind
  | leave port =>
    intro p q k hp hq
    simp only [serve] at hp hq
    refine h p q k ?_ ?_ <;> grind

/-- To bind a slot to the port that it is planned for changes nothing. -/
theorem serve_bind_of_planned (h : plan.Exclusive) (hplan : plan port = some slot) :
    plan.serve (.bind slot port) = plan := by
  funext q
  simp only [serve]
  split
  next hq => rw [hq, hplan]
  next hq =>
    split
    next hslot => exact absurd (h q port slot hslot hplan) hq
    next => rfl

end PortPlan

/-- The ports that a configuration asks for, port 1 first. -/
def Config.portRequests (c : Config) : List PortRequest :=
  Port.all.filterMap fun port => (c.slotOn port).map fun slot => .bind slot port

/-- The wish about a port that a command is. -/
def Router.Command.portRequest? : Router.Command → Option PortRequest
  | bindPort slot port => some (.bind slot port)
  | unbindPort port => some (.leave port)
  | _ => none

/-- A request about a port as a command to a router. -/
def PortRequest.command : PortRequest → Router.Command
  | bind slot port => .bindPort slot port
  | leave port => .unbindPort port

/-- The slot that each port is reserved for after some commands, from the configuration on. -/
def portPlan (c : Config) (cmds : List Router.Command) : PortPlan :=
  (c.portRequests ++ cmds.filterMap Router.Command.portRequest?).foldl PortPlan.serve fun _ => none

/-- The pad is bound to the port that its slot is planned for. -/
def Pad.Serves (p : Pad) (plan : PortPlan) (slot : Nat) : Prop :=
  ∀ port, p.port = some port ↔ plan port = some slot

namespace Pad

variable {p : Pad} {plan : PortPlan} {slot k : Nat}

theorem serves_setPort (p : Pad) (plan : PortPlan) (slot : Nat) (port : Port) :
    (p.setPort (some port)).Serves (plan.serve (.bind slot port)) slot := by
  intro q
  change some port = some q ↔ _
  simp only [PortPlan.serve]
  by_cases hq : q = port
  · simp [hq]
  · have hne : port ≠ q := fun h => hq h.symm
    by_cases hplan : plan q = some slot <;> simp [hq, hne, hplan]

/-- A pad in another slot keeps its port, unless this is the one that is bound. -/
theorem Serves.bind_other (h : p.Serves plan k) (hk : slot ≠ k) (port : Port) :
    (if p.port = some port then p.setPort none else p).Serves (plan.serve (.bind slot port)) k := by
  intro q
  have hold := h q
  simp only [PortPlan.serve]
  by_cases hq : q = port
  · subst hq
    by_cases hbound : p.port = some q <;> simp [hbound, hk, setPort]
  · have hne : port ≠ q := fun h => hq h.symm
    rw [if_neg hq]
    by_cases hplan : plan q = some slot
    · -- the slot loses port `q`, which this pad does not hold
      have hnot : p.port ≠ some q := fun h => by
        have := hold.mp h
        rw [hplan] at this
        exact hk (Option.some.inj this)
      by_cases hbound : p.port = some port <;> simp [hplan, hbound, hnot, setPort]
    · rw [if_neg hplan, ← hold]
      by_cases hbound : p.port = some port <;> simp [hbound, hne, setPort]

theorem Serves.leave (h : p.Serves plan k) (port : Port) :
    (if p.port = some port then p.setPort none else p).Serves (plan.serve (.leave port)) k := by
  intro q
  have hold := h q
  simp only [PortPlan.serve]
  by_cases hq : q = port
  · subst hq
    by_cases hbound : p.port = some q <;> simp [hbound, setPort]
  · have hne : port ≠ q := fun h => hq h.symm
    rw [if_neg hq, ← hold]
    by_cases hbound : p.port = some port <;> simp [hbound, hne, setPort]

end Pad

namespace Router

/-- The router agrees with a plan. -/
structure Follows (r : Router) (plan : PortPlan) : Prop where
  reserved : ∀ port, r.reservations.get port = plan port
  exclusive : plan.Exclusive
  serves : ∀ k p, r.pad? k = some p → p.Serves plan k

variable {r s : Router} {plan : PortPlan}

/-! ### Requests -/

theorem get_claim (reserved : Reservations) (slot : Nat) (port q : Port) :
    (reserved.claim port slot).get q =
      if q = port then some slot
      else if reserved.get q = some slot then none
      else reserved.get q := by
  unfold Reservations.claim
  rw [Reservations.get_set]
  -- the other port of `port` is `q` itself, as there are only two
  cases port <;> cases q <;> simp only [Port.other, reduceIte, reduceCtorEq] <;>
    split <;> simp_all [Reservations.get_set]

/-- The pad in the slot need not agree with the plan before it is bound. -/
theorem follows_bindPort {slot : Nat} (port : Port)
    (hreserved : ∀ q, r.reservations.get q = plan q) (hexclusive : plan.Exclusive)
    (hserves : ∀ k p, k ≠ slot → r.pad? k = some p → p.Serves plan k) :
    (r.bindPort slot port).state.Follows (plan.serve (.bind slot port)) where
  reserved q := by
    simp only [PortPlan.serve, ← hreserved]
    exact get_claim ..
  exclusive := PortPlan.exclusive_serve hexclusive _
  serves k p hp := by
    rw [pad?_bindPort] at hp
    obtain ⟨before, hbefore, rfl⟩ := Option.map_eq_some_iff.mp hp
    by_cases hk : slot = k
    · rw [if_pos hk, ← hk]
      exact before.serves_setPort plan slot port
    · rw [if_neg hk]
      exact (hserves k before (Ne.symm hk) hbefore).bind_other hk port

theorem Follows.unbindPort (h : r.Follows plan) (port : Port) :
    (r.unbindPort port).Follows (plan.serve (.leave port)) where
  reserved q := by
    change (r.reservations.set port none).get q = _
    rw [Reservations.get_set, h.reserved, PortPlan.serve]
  exclusive := PortPlan.exclusive_serve h.exclusive _
  serves k p hp := by
    rw [pad?_unbindPort] at hp
    obtain ⟨before, hbefore, rfl⟩ := Option.map_eq_some_iff.mp hp
    exact (h.serves k before hbefore).leave port

theorem Follows.bindPort (h : r.Follows plan) (slot : Nat) (port : Port) :
    (r.bindPort slot port).state.Follows (plan.serve (.bind slot port)) :=
  follows_bindPort port h.reserved h.exclusive fun k p _ => h.serves k p

/-! ### Everything else -/

theorem Follows.quiet (h : r.Follows plan) (hrs : r.Undisturbed s) : s.Follows plan where
  reserved port := by rw [hrs.reservations, h.reserved]
  exclusive := h.exclusive
  serves k q hq port := by
    obtain ⟨p, hp, hpq⟩ := hrs.pads.exists_left hq
    rw [hpq.port]
    exact h.serves k p hp port

theorem Follows.remove (h : r.Follows plan) (location : String) :
    (r.remove location).state.Follows plan where
  reserved := h.reserved
  exclusive := h.exclusive
  serves k p hp := by
    rw [pad?_remove] at hp
    exact h.serves k p (Option.filter_eq_some_iff.mp hp).1

theorem applyReservations_of_none {slot : Nat} (h : ∀ port, r.reservations.get port ≠ some slot) :
    (r.applyReservations slot).state = r := by
  simp only [applyReservations, Port.all, Outcome.forEach, Outcome.andThen, if_neg (h _)]

/-- Only the one port that waits for the slot is bound. -/
theorem applyReservations_of_reserved {slot : Nat} {port : Port}
    (h : r.reservations.get port = some slot)
    (hother : r.reservations.get port.other ≠ some slot) :
    (r.applyReservations slot).state = (r.bindPort slot port).state := by
  cases port with
  | one =>
    have htwo : r.reservations.get .two ≠ some slot := hother
    -- binding port 1 does not make port 2 wait for the slot
    have hlater : (r.bindPort slot .one).state.reservations.get .two ≠ some slot := by
      change (r.reservations.claim .one slot).get .two ≠ some slot
      rw [get_claim, if_neg (by decide), if_neg htwo]
      exact htwo
    simp only [applyReservations, Port.all, Outcome.forEach, Outcome.andThen, if_pos h,
      if_neg hlater]
  | two =>
    have hfirst : r.reservations.get .one ≠ some slot := hother
    simp only [applyReservations, Port.all, Outcome.forEach, Outcome.andThen, if_neg hfirst,
      if_pos h]

theorem Follows.seat (h : r.Follows plan) (slot : Nat) (device : Device) :
    (r.seat slot device).state.Follows plan := by
  have hserves : ∀ k p, k ≠ slot → (r.placed slot device).pad? k = some p → p.Serves plan k := by
    intro k p hk hp
    rw [pad?_placed, if_neg hk] at hp
    exact h.serves k p hp
  rw [seat_state]
  by_cases hwaits : ∃ port, plan port = some slot
  · obtain ⟨port, hport⟩ := hwaits
    have hother : plan port.other ≠ some slot := fun ho => by
      have := h.exclusive _ _ _ ho hport
      cases port <;> cases this
    have hstate := applyReservations_of_reserved (r := r.placed slot device)
      ((h.reserved port).trans hport) (fun ho => hother ((h.reserved _).symm.trans ho))
    rw [hstate, ← PortPlan.serve_bind_of_planned h.exclusive hport]
    exact follows_bindPort port h.reserved h.exclusive hserves
  · have hnone : ∀ port, plan port ≠ some slot := fun port hp => hwaits ⟨port, hp⟩
    have hstate := applyReservations_of_none (r := r.placed slot device)
      (fun port hp => hnone port ((h.reserved port).symm.trans hp))
    rw [hstate]
    refine ⟨h.reserved, h.exclusive, fun k p hp => ?_⟩
    by_cases hk : k = slot
    · -- a new pad is bound to no port
      rw [pad?_placed, if_pos hk] at hp
      obtain rfl := Option.some.inj hp
      intro port
      have hport : (r.padFor device).port = none := rfl
      simp [hport, hk, hnone]
    · exact hserves k p hk hp

theorem follows_perform (h : r.Follows plan) (cmd : Command) :
    (r.perform cmd).state.Follows (cmd.portRequest?.toList.foldl PortPlan.serve plan) := by
  by_cases hcmd : cmd.portRequest? = none
  · rw [hcmd]
    refine perform_induction (P := fun r => r.Follows plan) ?_ ?_ ?_ ?_ ?_ h
    · exact fun r s hrs hr => hr.quiet hrs
    · exact fun r slot device _ _ hr => hr.seat slot device
    · exact fun r location _ hr => hr.remove location
    · intro r slot port hbind
      simp [hbind, Command.portRequest?] at hcmd
    · intro r port hleave
      simp [hleave, Command.portRequest?] at hcmd
  · cases cmd <;> simp only [Command.portRequest?, not_true_eq_false] at hcmd
    case bindPort slot port => exact h.bindPort slot port
    case unbindPort port => exact h.unbindPort port

theorem follows_run (h : r.Follows plan) (cmds : List Command) :
    (r.run cmds).Follows ((cmds.filterMap Command.portRequest?).foldl PortPlan.serve plan) := by
  induction cmds generalizing r plan with
  | nil => exact h
  | cons cmd rest ih =>
    have hrest := ih (follows_perform h cmd)
    rw [run_cons]
    cases hcmd : cmd.portRequest? <;> simpa [hcmd] using hrest

/-! ### From a configuration on -/

theorem port_of_mem_builtinPads {k : Nat} {p : Pad} (h : builtinPads.get? k = some p) :
    p.port = none := by
  have hall : ∀ e ∈ builtinPads.entries, e.2.port = none := by decide
  exact hall (k, p) (Table.get?_eq_some_iff_mem.mp h)

theorem follows_forEach_bind (slotOn : Port → Option Nat) (ports : List Port)
    (h : r.Follows plan) :
    (Outcome.forEach
      (fun r port =>
        match slotOn port with
        | some slot => r.bindPort slot port
        | none => ⟨r, (), {}⟩) r ports).state.Follows
      ((ports.filterMap fun port => (slotOn port).map fun slot => .bind slot port).foldl
        PortPlan.serve plan) := by
  induction ports generalizing r plan with
  | nil => exact h
  | cons port rest ih =>
    simp only [Outcome.forEach, Outcome.andThen, List.filterMap_cons]
    cases hport : slotOn port with
    | none => exact ih h
    | some slot => exact ih (h.bindPort slot port)

theorem follows_start (c : Config) (register : Register) :
    (start c register).state.Follows (portPlan c []) := by
  rw [portPlan, List.filterMap_nil, List.append_nil]
  refine follows_forEach_bind c.slotOn Port.all ⟨fun port => ?_, fun p q slot hp => ?_, ?_⟩
  · cases port <;> rfl
  · simp at hp
  · intro k p hp port
    simp [port_of_mem_builtinPads hp]

/-- A router agrees with the plan after every run. -/
theorem follows_run_start (c : Config) (register : Register) (cmds : List Command) :
    ((start c register).state.run cmds).Follows (portPlan c cmds) := by
  have h := follows_run (follows_start c register) cmds
  rwa [portPlan, List.filterMap_nil, List.append_nil, ← List.foldl_append] at h

/-! ### What an agreeing router shows -/

theorem Follows.port_iff (h : r.Follows plan) (slot : Nat) (port : Port) :
    (r.pad? slot).bind Pad.port = some port ↔ r.isUsed slot = true ∧ plan port = some slot := by
  rw [isUsed_iff, Option.bind_eq_some_iff]
  constructor
  · rintro ⟨p, hp, hport⟩
    exact ⟨⟨p, hp⟩, (h.serves slot p hp port).mp hport⟩
  · rintro ⟨⟨p, hp⟩, hplan⟩
    exact ⟨p, hp, (h.serves slot p hp port).mpr hplan⟩

theorem Follows.slotOn_eq (h : r.Follows plan) (port : Port) :
    r.slotOn port = (plan port).filter r.isUsed := by
  cases hslot : r.slotOn port with
  | some slot =>
    obtain ⟨p, hp, hport⟩ := exists_of_slotOn hslot
    have hplan := (h.serves slot p hp port).mp hport
    have hused : r.isUsed slot = true := isUsed_iff.mpr ⟨p, hp⟩
    rw [hplan, Option.filter_some, if_pos hused]
  | none =>
    symm
    rw [Option.filter_eq_none_iff]
    intro slot hplan hused
    obtain ⟨p, hp⟩ := isUsed_iff.mp hused
    exact slotOn_eq_none_iff.mp hslot slot p hp ((h.serves slot p hp port).mpr hplan)

/-- **A pad is bound exactly to the port that its slot is reserved for**, after every run of
commands from every configuration on. Hence no port has two pads, a port is found on the reserved
slot as soon as that slot is occupied, and runs with the same requests agree on the port of every
slot, whatever devices and inputs come in between. -/
theorem port_iff_planned (c : Config) (register : Register) (cmds : List Command) :
    let r := (start c register).state.run cmds
    let plan := portPlan c cmds
    (∀ slot port, (r.pad? slot).bind Pad.port = some port ↔
      r.isUsed slot = true ∧ plan port = some slot) ∧
    (∀ s t port, (r.pad? s).bind Pad.port = some port → (r.pad? t).bind Pad.port = some port →
      s = t) ∧
    (∀ port, r.slotOn port = (plan port).filter r.isUsed) ∧
    ∀ others : List Command,
      others.filterMap Command.portRequest? = cmds.filterMap Command.portRequest? →
      let r' := (start c register).state.run others
      r'.reservations = r.reservations ∧
      ∀ slot, r'.isUsed slot = true → r.isUsed slot = true →
        (r'.pad? slot).bind Pad.port = (r.pad? slot).bind Pad.port := by
  intro r plan
  have hr : r.Follows plan := follows_run_start c register cmds
  refine ⟨hr.port_iff, ?_, hr.slotOn_eq, ?_⟩
  · intro s t port hs ht
    have hsplan := ((hr.port_iff s port).mp hs).2
    have htplan := ((hr.port_iff t port).mp ht).2
    rw [hsplan] at htplan
    exact Option.some.inj htplan
  · intro others hsame r'
    have hr' : r'.Follows plan := by
      have h := follows_run_start c register others
      rwa [portPlan, hsame] at h
    refine ⟨?_, fun slot hused' hused => ?_⟩
    · have hone : r'.reservations.one = r.reservations.one :=
        (hr'.reserved .one).trans (hr.reserved .one).symm
      have htwo : r'.reservations.two = r.reservations.two :=
        (hr'.reserved .two).trans (hr.reserved .two).symm
      cases hres' : r'.reservations
      cases hres : r.reservations
      simp_all
    · refine Option.ext fun port => ?_
      rw [hr'.port_iff, hr.port_iff, hused', hused]

end Router

end PadRouter

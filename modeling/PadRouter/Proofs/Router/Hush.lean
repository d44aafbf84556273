import PadRouter.Proofs.Router.Calls
import PadRouter.Router.Snapshot

/-!
# A router that nobody listens to

Pads publish what they send if they are asked to, and listeners hear it. Without listeners, and with
pads that publish nothing, a router does the same in every other respect.

* `Outcome.SameUpTo` — two outcomes agree up to what is forgotten of the state, and so do the calls
  on the ports; it goes through sequences and loops.
* `Pad.hush`, `Router.hush` — a pad that publishes nothing, and a router of such pads without
  listeners.
* `Router.Command.forListeners` — the commands that are about listening only.
* `Router.sameUpTo_perform`, `Router.hush_perform` — any other command does the same to a router
  that is hushed, and those commands do nothing to it.
* `Router.responses` — what the other commands of a run return.
* `Router.run_hush` — a run, against the one that is hushed and does without those commands.
-/

namespace PadRouter

/-! ### Outcomes -/

namespace Outcome

/-- The second outcome is the first one up to what is forgotten of the state. Notices and deliveries
may differ. -/
structure SameUpTo {σ α : Type} (forget : σ → σ) (o o' : Outcome σ α) : Prop where
  state : o'.state = forget o.state
  result : o'.result = o.result
  calls : o'.trace.calls = o.trace.calls

namespace SameUpTo

variable {σ α β : Type} {forget : σ → σ} {o o' : Outcome σ α}

theorem mapResult (h : SameUpTo forget o o') (f : α → β) :
    SameUpTo forget (o.mapResult f) (o'.mapResult f) :=
  ⟨h.state, congrArg f h.result, h.calls⟩

theorem after (h : SameUpTo forget o o') {t t' : Trace} (ht : t'.calls = t.calls) :
    SameUpTo forget (o.after t) (o'.after t') :=
  ⟨h.state, h.result, congrArg₂ List.append ht h.calls⟩

theorem andThen {f f' : σ → α → Outcome σ β} (h : SameUpTo forget o o')
    (hf : ∀ s a, SameUpTo forget (f s a) (f' (forget s) a)) :
    SameUpTo forget (o.andThen f) (o'.andThen f') := by
  have hnext := hf o.state o.result
  have hsecond : f' o'.state o'.result = f' (forget o.state) o.result := by rw [h.state, h.result]
  rw [← hsecond] at hnext
  exact ⟨hnext.state, hnext.result, congrArg₂ List.append h.calls hnext.calls⟩

theorem forEach {f : σ → β → Outcome σ Unit}
    (hf : ∀ s item, SameUpTo forget (f s item) (f (forget s) item)) (s : σ) (l : List β) :
    SameUpTo forget (Outcome.forEach f s l) (Outcome.forEach f (forget s) l) := by
  induction l generalizing s with
  | nil => exact ⟨rfl, rfl, rfl⟩
  | cons item rest ih => exact (hf s item).andThen fun s _ => ih s

end SameUpTo

end Outcome

/-! ### Pads -/

namespace Pad

/-- The pad without its wish to publish. -/
def hush (p : Pad) : Pad := p.setNotify false

/-- Whether a command only decides on publishing. -/
def Command.forListeners : Command → Bool
  | setNotify _ => true
  | _ => false

theorem sameUpTo_resolve (register : Register) (p : Pad) :
    Outcome.SameUpTo hush (p.resolve register) (p.hush.resolve register) := by
  obtain ⟨kind, port, givenName, icon, keyMap, device, known, notify, decoder, held⟩ := p
  cases device <;> exact ⟨rfl, rfl, rfl⟩

theorem sameUpTo_handleReading (reading : Reading) (p : Pad) :
    Outcome.SameUpTo hush (p.handleReading reading) (p.hush.handleReading reading) := by
  obtain ⟨kind, port, givenName, icon, keyMap, device, known, notify, decoder, held⟩ := p
  cases kind <;> exact ⟨rfl, rfl, rfl⟩

theorem sameUpTo_afterKey (p : Pad) (decoded : HeldKeys × Option Action)
    (notice : List Action → Notice) :
    Outcome.SameUpTo hush (p.afterKey decoded notice) (p.hush.afterKey decoded notice) := by
  obtain ⟨held, action?⟩ := decoded
  cases action? <;> exact ⟨rfl, rfl, rfl⟩

theorem sameUpTo_onKey (down : Bool) (maps : KeyMaps) (key : Key) (p : Pad) :
    Outcome.SameUpTo hush (p.onKey down maps key) (p.hush.onKey down maps key) := by
  obtain ⟨kind, port, givenName, icon, keyMap, device, known, notify, decoder, held⟩ := p
  cases keyMap with
  | none => cases down <;> exact ⟨rfl, rfl, rfl⟩
  | some id => cases down <;> exact sameUpTo_afterKey _ _ _

theorem sameUpTo_perform {cmd : Command} (h : cmd.forListeners = false) (p : Pad) :
    Outcome.SameUpTo hush (p.perform cmd) (p.hush.perform cmd) := by
  cases cmd with
  | resolve register => exact (p.sameUpTo_resolve register).mapResult _
  | handleReading reading => exact (p.sameUpTo_handleReading reading).mapResult _
  | keyDown maps key => exact (p.sameUpTo_onKey true maps key).mapResult _
  | keyUp maps key => exact (p.sameUpTo_onKey false maps key).mapResult _
  | forward kind actions => exact ⟨rfl, rfl, rfl⟩
  | moveMouse dx dy detect answer => exact ⟨rfl, rfl, rfl⟩
  | setNotify on => cases h
  | reset => exact ⟨rfl, rfl, rfl⟩

end Pad

namespace Router

/-- The router with pads that publish nothing and without listeners. -/
def hush (r : Router) : Router := { r with pads := r.pads.map fun _ p => p.hush, bus := {} }

variable {r s t : Router} {cmd : Command}

/-! ### Look-up -/

theorem pad?_hush (r : Router) (k : Nat) : r.hush.pad? k = (r.pad? k).map Pad.hush :=
  Table.get?_map ..

theorem slotOf?_hush (r : Router) (location : String) :
    r.hush.slotOf? location = r.slotOf? location :=
  Table.fst_find?_map r.pads (fun _ p => p.hush) fun _ p => p.location? == some location

theorem slotOn_hush (r : Router) (port : Port) : r.hush.slotOn port = r.slotOn port :=
  Table.fst_find?_map r.pads (fun _ p => p.hush) fun _ p => p.port == some port

/-- Nothing that a menu shows tells whether somebody listens. -/
theorem snapshot_hush (r : Router) : r.hush.snapshot = r.snapshot := by
  refine Table.ext_get? fun k => ?_
  simp only [snapshot, hush, Table.get?_map, Option.map_map]
  rfl

theorem freeSlot?_hush (r : Router) : r.hush.freeSlot? = r.freeSlot? := by
  have hsize : r.hush.pads.size = r.pads.size := List.length_map _
  have hused : r.hush.isUsed = r.isUsed := by
    funext k
    change (r.hush.pad? k).isSome = (r.pad? k).isSome
    rw [pad?_hush, Option.isSome_map]
  rw [freeSlot?, freeSlot?, hsize, hused]
  rfl

theorem hush_insert (r : Router) (slot : Nat) (p : Pad) :
    ({ r with pads := r.pads.insert slot p } : Router).hush =
      { r.hush with pads := r.hush.pads.insert slot p.hush } := by
  refine eq_of_pad? rfl fun k => ?_
  rw [pad?_hush, pad?_insert, pad?_insert, pad?_hush]
  split <;> rfl

/-- What is done to each pad may be done to the pads that are hushed. -/
theorem eq_hush_of_map {f : Nat → Pad → Pad} (hrest : { t with pads := s.hush.pads } = s.hush)
    (hs : ∀ k, s.pad? k = (r.pad? k).map (f k)) (ht : ∀ k, t.pad? k = (r.hush.pad? k).map (f k))
    (hf : ∀ k p, f k p.hush = (f k p).hush) : t = s.hush := by
  refine eq_of_pad? hrest fun k => ?_
  rw [pad?_hush, hs, ht, pad?_hush, Option.map_map, Option.map_map]
  congr 1
  funext p
  exact hf k p

/-! ### Operations -/

theorem sameUpTo_onPad {α : Type} (r : Router) (slot : Nat) (otherwise : α)
    {f f' : Pad → Outcome Pad α} (hf : ∀ p, Outcome.SameUpTo Pad.hush (f p) (f' p.hush)) :
    Outcome.SameUpTo hush (r.onPad slot otherwise f) (r.hush.onPad slot otherwise f') := by
  unfold onPad
  rw [pad?_hush]
  cases r.pad? slot with
  | none => exact ⟨rfl, rfl, rfl⟩
  | some p =>
    refine ⟨?_, (hf p).result, (hf p).calls⟩
    change ({ r.hush with pads := r.hush.pads.insert slot (f' p.hush).state } : Router) = _
    rw [(hf p).state]
    exact (hush_insert r slot _).symm

theorem hush_unbindPort (r : Router) (port : Port) :
    r.hush.unbindPort port = (r.unbindPort port).hush := by
  refine eq_hush_of_map rfl (pad?_unbindPort r port) (pad?_unbindPort r.hush port) fun k p => ?_
  by_cases hport : p.port = some port <;> simp [hport, Pad.hush, Pad.setNotify, Pad.setPort]

theorem sameUpTo_bindPort (r : Router) (slot : Nat) (port : Port) :
    Outcome.SameUpTo hush (r.bindPort slot port) (r.hush.bindPort slot port) where
  state := by
    refine eq_hush_of_map rfl (pad?_bindPort r slot port) (pad?_bindPort r.hush slot port)
      fun k p => ?_
    by_cases hslot : slot = k <;> by_cases hport : p.port = some port <;>
      simp [hslot, hport, Pad.hush, Pad.setNotify, Pad.setPort]
  result := rfl
  calls := rfl

theorem sameUpTo_applyReservations (r : Router) (slot : Nat) :
    Outcome.SameUpTo hush (r.applyReservations slot) (r.hush.applyReservations slot) := by
  refine .forEach (fun s port => ?_) r Port.all
  have hreserved : s.hush.reservations = s.reservations := rfl
  rw [hreserved]
  split
  · exact s.sameUpTo_bindPort slot port
  · exact ⟨rfl, rfl, rfl⟩

theorem sameUpTo_seat (r : Router) (slot : Nat) (device : Device) :
    Outcome.SameUpTo hush (r.seat slot device) (r.hush.seat slot device) := by
  -- the pad of a device that has just come does not publish
  have hplaced : (r.placed slot device).hush = r.hush.placed slot device :=
    hush_insert r slot (r.padFor device)
  have hbound := (r.placed slot device).sameUpTo_applyReservations slot
  rw [hplaced] at hbound
  exact hbound.after rfl

theorem sameUpTo_arrive (r : Router) (device : Device) :
    Outcome.SameUpTo hush (r.arrive device) (r.hush.arrive device) := by
  have hfind : Outcome.SameUpTo hush r.findFreeSlot r.hush.findFreeSlot :=
    ⟨rfl, freeSlot?_hush r, rfl⟩
  unfold arrive
  rw [slotOf?_hush]
  split
  · exact ⟨rfl, rfl, rfl⟩
  · split
    · exact ⟨rfl, rfl, rfl⟩
    · refine hfind.andThen fun s free => ?_
      cases free with
      | some slot => exact (s.sameUpTo_seat slot device).mapResult _
      | none => exact ⟨rfl, rfl, rfl⟩

theorem sameUpTo_remove (r : Router) (location : String) :
    Outcome.SameUpTo hush (r.remove location) (r.hush.remove location) where
  state := by
    refine eq_of_pad? rfl fun k => ?_
    rw [pad?_hush, pad?_remove, pad?_remove, pad?_hush, Option.filter_map]
    rfl
  result := by
    simp only [remove, hush, Table.keys, Table.filter, Table.map, List.filter_map, List.map_map]
    rfl
  calls := rfl

theorem sameUpTo_processHid (r : Router) (location : String) (reading : Reading) :
    Outcome.SameUpTo hush (r.processHid location reading) (r.hush.processHid location reading) := by
  unfold processHid
  rw [slotOf?_hush]
  split
  · exact ⟨rfl, rfl, rfl⟩
  next slot _ =>
    refine r.sameUpTo_onPad slot [] fun p => ?_
    refine (p.sameUpTo_handleReading reading).andThen fun q actions => ?_
    -- what is published differs, but to publish is no call on a port
    exact ⟨rfl, rfl, by rw [calls_publish, calls_publish]⟩

theorem sameUpTo_offerKey {event : KeyMaps → Key → Pad → Outcome Pad Bool}
    (hevent : ∀ maps key p, Outcome.SameUpTo Pad.hush (event maps key p) (event maps key p.hush))
    (key : Key) (ports : List Port) : ∀ r : Router,
      Outcome.SameUpTo hush (offerKey event key r ports) (offerKey event key r.hush ports) := by
  induction ports with
  | nil => exact fun _ => ⟨rfl, rfl, rfl⟩
  | cons port rest ih =>
    intro r
    unfold offerKey
    rw [slotOn_hush]
    split
    · exact ih r
    next slot _ =>
      refine (r.sameUpTo_onPad slot false (hevent r.keyMaps key)).andThen fun s bound => ?_
      have hkept : s.hush.disconnectKeys = s.disconnectKeys := rfl
      rw [hkept]
      split
      · exact ⟨rfl, rfl, rfl⟩
      · exact ih s

theorem sameUpTo_onMouse (r : Router) (slot : Nat) {f : Pad → Outcome Pad Bool}
    (hf : ∀ p, Outcome.SameUpTo Pad.hush (f p) (f p.hush)) :
    Outcome.SameUpTo hush (r.onMouse slot f) (r.hush.onMouse slot f) := by
  refine r.sameUpTo_onPad slot false fun p => ?_
  have hmouse : p.hush.isMouse = p.isMouse := rfl
  rw [hmouse]
  split
  · exact hf p
  · exact ⟨rfl, rfl, rfl⟩

theorem sameUpTo_handle (r : Router) (event : HidEvent) :
    Outcome.SameUpTo hush (r.handle event) (r.hush.handle event) := by
  cases event with
  | arrived device => exact (r.sameUpTo_arrive device).mapResult fun _ => ()
  | removed location => exact (r.sameUpTo_remove location).mapResult fun _ => ()
  | value location reading => exact (r.sameUpTo_processHid location reading).mapResult fun _ => ()

theorem hush_editKeys (r : Router) (slot : Nat) (f : KeyMap → KeyMap) :
    (r.hush.editKeys slot f).1 = (r.editKeys slot f).1.hush ∧
      (r.hush.editKeys slot f).2 = (r.editKeys slot f).2 := by
  have hid : (r.hush.pad? slot).bind Pad.keyMap = (r.pad? slot).bind Pad.keyMap := by
    rw [pad?_hush, Option.bind_map]
    rfl
  unfold editKeys
  rw [hid]
  cases (r.pad? slot).bind Pad.keyMap <;> exact ⟨rfl, rfl⟩

theorem sameUpTo_refreshSchemes (r : Router) :
    Outcome.SameUpTo hush r.refreshSchemes r.hush.refreshSchemes where
  state := eq_hush_of_map rfl (pad?_refreshSchemes r) (pad?_refreshSchemes r.hush)
    fun _ p => (p.sameUpTo_resolve r.register).state
  result := by
    simp only [refreshSchemes, hush, Table.values, Table.map, List.map_map, List.countP_map]
    congr 1
    funext e
    exact (e.2.sameUpTo_resolve r.register).result
  calls := rfl

theorem hush_setNotify (r : Router) (slot : Nat) (on : Bool) :
    (r.setNotify slot on).hush = r.hush := by
  refine eq_of_pad? rfl fun k => ?_
  rw [pad?_hush, pad?_hush, pad?_setNotify, Option.map_map]
  congr 1
  funext p
  by_cases hslot : slot = k <;> simp [hslot, Pad.hush, Pad.setNotify]

/-! ### Commands -/

/-- Whether a command only says who publishes and who listens. -/
def Command.forListeners : Command → Bool
  | setNotify _ _ | editBus _ => true
  | pad _ cmd => cmd.forListeners
  | _ => false

/-- Any other command does the same to a router that is hushed. -/
theorem sameUpTo_perform (h : cmd.forListeners = false) (r : Router) :
    Outcome.SameUpTo hush (r.perform cmd) (r.hush.perform cmd) := by
  cases cmd with
  | bindPort slot port => exact (r.sameUpTo_bindPort slot port).mapResult fun _ => Response.done
  | unbindPort port => exact ⟨r.hush_unbindPort port, rfl, rfl⟩
  | arrive device => exact (r.sameUpTo_arrive device).mapResult _
  | remove location => exact (r.sameUpTo_remove location).mapResult _
  | handle event => exact (r.sameUpTo_handle event).mapResult fun _ => Response.done
  | pump events =>
    exact (Outcome.SameUpTo.forEach sameUpTo_handle r events).mapResult fun _ =>
      Response.count events.length
  | processHid location reading => exact (r.sameUpTo_processHid location reading).mapResult _
  | keyDown key => exact (sameUpTo_offerKey (Pad.sameUpTo_onKey true) key.plain _ r).mapResult _
  | keyUp key => exact (sameUpTo_offerKey (Pad.sameUpTo_onKey false) key.plain _ r).mapResult _
  | mouseMoved slot dx dy answer =>
    exact (r.sameUpTo_onMouse slot fun _ => ⟨rfl, rfl, rfl⟩).mapResult _
  | mouseButtons slot actions =>
    exact (r.sameUpTo_onMouse slot fun _ => ⟨rfl, rfl, rfl⟩).mapResult _
  | bindKey slot key action =>
    obtain ⟨hstate, hresult⟩ := r.hush_editKeys slot fun m => m.bind key.plain action
    exact ⟨hstate, congrArg Response.flag hresult, rfl⟩
  | unbindKey slot action =>
    obtain ⟨hstate, hresult⟩ := r.hush_editKeys slot fun m => m.unbind action
    exact ⟨hstate, congrArg Response.flag hresult, rfl⟩
  | refreshSchemes => exact r.sameUpTo_refreshSchemes.mapResult _
  | setNotify slot on => cases h
  | setDisconnectKeys on => exact ⟨rfl, rfl, rfl⟩
  | setReleaseMouseByShaking on => exact ⟨rfl, rfl, rfl⟩
  | editKeyMaps edit => exact ⟨rfl, rfl, rfl⟩
  | editRegister edit => exact ⟨rfl, rfl, rfl⟩
  | editBus edit => cases h
  | pad slot cmd => exact r.sameUpTo_onPad slot Response.done (Pad.sameUpTo_perform h)

/-- A command about listening only leaves the same router when all is hushed, and calls no port. -/
theorem hush_perform (h : cmd.forListeners = true) (r : Router) :
    (r.perform cmd).state.hush = r.hush ∧ (r.perform cmd).trace.calls = [] := by
  cases cmd with
  | setNotify slot on => exact ⟨r.hush_setNotify slot on, rfl⟩
  | editBus edit => exact ⟨rfl, rfl⟩
  | pad slot cmd =>
    cases cmd with
    | setNotify on =>
      change (r.onPad slot Response.done fun p => p.perform (.setNotify on)).state.hush = r.hush ∧
        (r.onPad slot Response.done fun p => p.perform (.setNotify on)).trace.calls = []
      unfold onPad
      cases hp : r.pad? slot with
      | none => exact ⟨rfl, rfl⟩
      | some p =>
        refine ⟨eq_of_pad? rfl fun k => ?_, rfl⟩
        simp only [Outcome.mapState]
        rw [pad?_hush, pad?_hush, pad?_insert]
        split
        next hk =>
          rw [hk, hp]
          rfl
        next => rfl
    | _ => cases h
  | _ => cases h

/-! ### Runs -/

/-- What the commands of a run return, in order, but for those about listening only. -/
def responses : Router → List Command → List Response
  | _, [] => []
  | r, cmd :: rest =>
    (if cmd.forListeners then [] else [(r.perform cmd).result]) ++
      responses (r.perform cmd).state rest

/-- The commands that are not about listening only. -/
def heeded (cmds : List Command) : List Command := cmds.filter fun cmd => !cmd.forListeners

/-- A run, against the one that is hushed and does without the commands about listening. -/
theorem run_hush (r : Router) (cmds : List Command) :
    (r.run cmds).hush = r.hush.run (heeded cmds) ∧
      r.responses cmds = r.hush.responses (heeded cmds) ∧
      r.callsOf cmds = r.hush.callsOf (heeded cmds) := by
  induction cmds generalizing r with
  | nil => exact ⟨rfl, rfl, rfl⟩
  | cons cmd rest ih =>
    obtain ⟨hstate, hresponses, hcalls⟩ := ih (r.perform cmd).state
    by_cases hcmd : cmd.forListeners = true
    · obtain ⟨hsame, hnone⟩ := hush_perform hcmd r
      have hrest : heeded (cmd :: rest) = heeded rest := by simp [heeded, hcmd]
      rw [hsame] at hstate hresponses hcalls
      rw [hrest, run_cons, responses, callsOf, if_pos hcmd, hnone]
      exact ⟨hstate, hresponses, hcalls⟩
    · have hother : cmd.forListeners = false := by simpa using hcmd
      have hsame := sameUpTo_perform hother r
      have hrest : heeded (cmd :: rest) = cmd :: heeded rest := by simp [heeded, hother]
      rw [← hsame.state] at hstate hresponses hcalls
      rw [hrest, run_cons, run_cons, responses, responses, callsOf, callsOf, if_neg hcmd,
        if_neg hcmd, hsame.result, hsame.calls]
      exact ⟨hstate, congrArg _ hresponses, congrArg _ hcalls⟩

end Router

end PadRouter

import PadRouter.Proofs.Router.Slots

/-!
# Commands to a router

All that can be asked of a router, as data, so that a run is a list of commands.

* `Router.Command`, `Router.perform` — the commands and what they do.
* `Router.run` — the state after a list of commands.
* `Router.Command.events` — the device events that a command brings.
* `Router.perform_induction` — a command does nothing but seat devices that it brings, drop pads
  whose removal it brings, bind or unbind the port that it names, and leave all sources and ports
  as they are. What these keep, the command keeps.
-/

namespace PadRouter.Router

/-- What can be asked of a router. -/
inductive Command
  | bindPort (slot : Nat) (port : Port)
  | unbindPort (port : Port)
  | arrive (device : Device)
  | remove (location : String)
  | handle (event : HidEvent)
  /-- All events that a source of HID events hands out at once. -/
  | pump (events : List HidEvent)
  | processHid (location : String) (reading : Reading)
  | keyDown (key : Key)
  | keyUp (key : Key)
  /-- The shake detector says `answer` if it is asked. -/
  | mouseMoved (slot : Nat) (dx dy : Float) (answer : Bool)
  | mouseButtons (slot : Nat) (actions : List Action)
  | bindKey (slot : Nat) (key : Key) (action : Bindable)
  | unbindKey (slot : Nat) (action : Bindable)
  | refreshSchemes
  | setNotify (slot : Nat) (on : Bool)
  | setDisconnectKeys (on : Bool)
  | setReleaseMouseByShaking (on : Bool)
  | editKeyMaps (edit : KeyMaps → KeyMaps)
  | editRegister (edit : Register → Register)
  | editBus (edit : ActivityBus → ActivityBus)
  /-- A command to the pad in a slot, past the router. -/
  | pad (slot : Nat) (cmd : Pad.Command)

/-- What a router does when it is asked. -/
def perform (r : Router) : Command → Outcome Router Response
  | .bindPort slot port => (r.bindPort slot port).mapResult fun _ => .done
  | .unbindPort port => ⟨r.unbindPort port, .done, {}⟩
  | .arrive device => (r.arrive device).mapResult .slot
  | .remove location => (r.remove location).mapResult .slots
  | .handle event => (r.handle event).mapResult fun _ => .done
  | .pump events => (r.handleAll events).mapResult fun _ => .count events.length
  | .processHid location reading => (r.processHid location reading).mapResult .actions
  | .keyDown key => (r.keyDown key).mapResult .flag
  | .keyUp key => (r.keyUp key).mapResult .flag
  | .mouseMoved slot dx dy answer => (r.mouseMoved slot dx dy answer).mapResult .flag
  | .mouseButtons slot actions => (r.mouseButtons slot actions).mapResult .flag
  | .bindKey slot key action =>
    ⟨(r.bindKey slot key action).1, .flag (r.bindKey slot key action).2, {}⟩
  | .unbindKey slot action => ⟨(r.unbindKey slot action).1, .flag (r.unbindKey slot action).2, {}⟩
  | .refreshSchemes => r.refreshSchemes.mapResult .count
  | .setNotify slot on => ⟨r.setNotify slot on, .done, {}⟩
  | .setDisconnectKeys on => ⟨r.setDisconnectKeys on, .done, {}⟩
  | .setReleaseMouseByShaking on => ⟨r.setReleaseMouseByShaking on, .done, {}⟩
  | .editKeyMaps edit => ⟨{ r with keyMaps := edit r.keyMaps }, .done, {}⟩
  | .editRegister edit => ⟨{ r with register := edit r.register }, .done, {}⟩
  | .editBus edit => ⟨{ r with bus := edit r.bus }, .done, {}⟩
  | .pad slot cmd => r.onPad slot .done fun p => p.perform cmd

/-- The router after some commands. -/
def run (r : Router) (cmds : List Command) : Router :=
  cmds.foldl (fun r cmd => (r.perform cmd).state) r

/-- The device events that a command brings. -/
def Command.events : Command → List HidEvent
  | arrive device => [.arrived device]
  | remove location => [.removed location]
  | handle event => [event]
  | pump events => events
  | _ => []

@[simp]
theorem run_nil (r : Router) : r.run [] = r := rfl

@[simp]
theorem run_cons (r : Router) (cmd : Command) (rest : List Command) :
    r.run (cmd :: rest) = (r.perform cmd).state.run rest := rfl

theorem run_append (r : Router) (first later : List Command) :
    r.run (first ++ later) = (r.run first).run later :=
  List.foldl_append

/-- What every command keeps, a run keeps. -/
theorem run_induction {P : Router → Prop} {cmds : List Command}
    (step : ∀ r, ∀ cmd ∈ cmds, P r → P (r.perform cmd).state) {r : Router} (h : P r) :
    P (r.run cmds) := by
  induction cmds generalizing r with
  | nil => exact h
  | cons cmd rest ih =>
    have hfirst := step r cmd List.mem_cons_self h
    exact ih (fun r c hc => step r c (List.mem_cons_of_mem _ hc)) hfirst

/-! ### What a command can do -/

section Induction

variable {P : Router → Prop}

theorem handle_induction {event : HidEvent}
    (quiet : ∀ r s : Router, r.Undisturbed s → P r → P s)
    (seat : ∀ r slot device, .arrived device = event → Admits r device slot → P r →
      P (r.seat slot device).state)
    (remove : ∀ r location, .removed location = event → P r → P (r.remove location).state)
    {r : Router} (h : P r) : P (r.handle event).state := by
  cases event with
  | arrived device =>
    change P (r.arrive device).state
    rcases r.arrive_cases device with ⟨slot, hadmits, hstate, -⟩ | ⟨-, hstate, -⟩
    · rw [hstate]
      exact seat r slot device rfl hadmits h
    · rw [hstate]
      exact h
  | removed location => exact remove r location rfl h
  | value location reading => exact quiet r _ (undisturbed_processHid r location reading) h

/-- A command does nothing but these five things. -/
theorem perform_induction {cmd : Command}
    (quiet : ∀ r s : Router, r.Undisturbed s → P r → P s)
    (seat : ∀ r slot device, .arrived device ∈ cmd.events → Admits r device slot → P r →
      P (r.seat slot device).state)
    (remove : ∀ r location, .removed location ∈ cmd.events → P r → P (r.remove location).state)
    (bind : ∀ r slot port, cmd = .bindPort slot port → P r → P (r.bindPort slot port).state)
    (unbind : ∀ r port, cmd = .unbindPort port → P r → P (r.unbindPort port))
    {r : Router} (h : P r) : P (r.perform cmd).state := by
  have hevent : ∀ s : Router, ∀ event ∈ cmd.events, P s → P (s.handle event).state := by
    intro s event hmem hs
    exact handle_induction quiet (fun r slot device he => seat r slot device (he ▸ hmem))
      (fun r location he => remove r location (he ▸ hmem)) hs
  cases cmd with
  | bindPort slot port => exact bind r slot port rfl h
  | unbindPort port => exact unbind r port rfl h
  | arrive device => exact hevent r _ (List.mem_singleton.mpr rfl) h
  | remove location => exact hevent r _ (List.mem_singleton.mpr rfl) h
  | handle event => exact hevent r _ (List.mem_singleton.mpr rfl) h
  | pump events => exact Outcome.forEach_induction hevent h
  | processHid location reading => exact quiet r _ (undisturbed_processHid r location reading) h
  | keyDown key => exact quiet r _ (undisturbed_offerKey Pad.undisturbed_keyDown _ _ r) h
  | keyUp key => exact quiet r _ (undisturbed_offerKey Pad.undisturbed_keyUp _ _ r) h
  | mouseMoved slot dx dy answer => exact quiet r _ (undisturbed_onMouse r slot .refl) h
  | mouseButtons slot actions => exact quiet r _ (undisturbed_onMouse r slot .refl) h
  | bindKey slot key action => exact quiet r _ (undisturbed_editKeys r slot _) h
  | unbindKey slot action => exact quiet r _ (undisturbed_editKeys r slot _) h
  | refreshSchemes => exact quiet r _ (undisturbed_refreshSchemes r) h
  | setNotify slot on => exact quiet r _ (undisturbed_setNotify r slot on) h
  | setDisconnectKeys on => exact quiet r _ (.of_pads_eq rfl rfl rfl) h
  | setReleaseMouseByShaking on => exact quiet r _ (.of_pads_eq rfl rfl rfl) h
  | editKeyMaps edit => exact quiet r _ (.of_pads_eq rfl rfl rfl) h
  | editRegister edit => exact quiet r _ (.of_pads_eq rfl rfl rfl) h
  | editBus edit => exact quiet r _ (.of_pads_eq rfl rfl rfl) h
  | pad slot cmd =>
    exact quiet r _ (undisturbed_onPad r slot _ fun p => p.perform_undisturbed cmd) h

end Induction

end PadRouter.Router

import PadRouter.Proofs.Element.Joystick
import PadRouter.Proofs.Router.Devices
import PadRouter.Proofs.Router.Keys

/-!
# What the register says and what the pads show

A pad takes over what the register says of its device when the device arrives and when the pads are
refreshed. In between the register may change, and the pad goes on showing what it was told.

* `Pad.shown`, `Pad.showing`, `Pad.outdated` — what a pad was told, the pad that is told something
  else, and whether its scheme is no longer that of the register.
* `Pad.resolve_of_shown` — a pad that shows what the register says has nothing to take over.
* `Router.SameListing` — two routers with the same register whose pads show the same.
* `Router.Command.lookup?`, `Router.latestLookup` — the register that a command looks up for a slot,
  and the last one that a run does.
* `Router.Shows` — every pad shows what a given register says, for each slot another one;
  `Router.Shows.perform`, `Router.Shows.run` — a command moves a slot on to what it looks up.
* `Router.UpToDate` — every pad shows what the register says; `Router.UpToDate.refreshSchemes_eq` —
  to refresh such pads does nothing.
* `Router.refresh_brings_up_to_date` — what a refresh returns, changes and leaves alone, and what
  the pads show between two of them.
-/

namespace PadRouter

/-! ### One pad -/

namespace Pad

variable {p q s : Pad} {register : Register} {device : Device}

/-- What the pad was told of its device. -/
def shown (p : Pad) : Resolution := ⟨p.scheme, p.givenName, p.icon, p.known⟩

/-- The pad with something else to show. The history of its elements stays, as does all the rest. -/
def showing (p : Pad) (found : Resolution) : Pad :=
  { p with
    decoder := p.decoder.setScheme found.scheme
    givenName := found.name
    icon := found.icon
    known := found.known }

/-- Whether the pad has a device and another scheme than the register gives it. -/
def outdated (register : Register) (p : Pad) : Bool :=
  p.device.any fun device => p.scheme != register.scheme device.vendorId device.productId

@[simp]
theorem shown_showing (p : Pad) (found : Resolution) : (p.showing found).shown = found := rfl

theorem showing_shown (p : Pad) : p.showing p.shown = p := rfl

/-- Without a name in the register the device's product name is shown, and without that a label. -/
theorem name_showing (h : p.device = some device) (found : Resolution) :
    (p.showing found).name = found.name.getD (device.product.getD externalName) := by
  cases hname : found.name with
  | none => simp only [name, showing, hname, h, Option.bind_some, Option.getD_none]
  | some given => simp only [name, showing, hname, Option.getD_some]

theorem resolve_of_no_device (h : p.device = none) : p.resolve register = ⟨p, false, {}⟩ := by
  rw [resolve, h]

theorem state_resolve (h : p.device = some device) :
    (p.resolve register).state =
      p.showing (register.resolve device.vendorId device.productId) := by
  unfold resolve
  split
  next hnone => simp [hnone] at h
  next other hother =>
    obtain rfl := Option.some.inj (hother.symm.trans h)
    rfl

theorem result_resolve (register : Register) (p : Pad) :
    (p.resolve register).result = p.outdated register := by
  unfold resolve outdated
  split
  next h =>
    rw [h]
    rfl
  next device h =>
    rw [h, Option.any_some, bne_comm]
    rfl

/-- A pad that shows what the register says has nothing to take over. -/
theorem resolve_of_shown (h : p.device = some device)
    (hshown : p.shown = register.resolve device.vendorId device.productId) :
    p.resolve register = ⟨p, false, {}⟩ := by
  have hscheme : (register.resolve device.vendorId device.productId).scheme = p.decoder.scheme := by
    rw [← hshown]
    rfl
  have hstate : (p.resolve register).state = p := by
    rw [state_resolve h, ← hshown, showing_shown]
  rw [resolve, h] at hstate ⊢
  simp only [hscheme, bne_self_eq_false, Bool.false_eq_true, if_false] at hstate ⊢
  rw [hstate]
  rfl

/-! What is done to a pad for other reasons does not change what it shows. -/

/-- Two pads have the same device and show the same of it. -/
structure SameListing (p q : Pad) : Prop where
  device : q.device = p.device
  shown : q.shown = p.shown

theorem SameListing.refl (p : Pad) : p.SameListing p := ⟨rfl, rfl⟩

theorem SameListing.trans (h₁ : p.SameListing q) (h₂ : q.SameListing s) : p.SameListing s :=
  ⟨h₂.device.trans h₁.device, h₂.shown.trans h₁.shown⟩

/-- The register that a command to a pad looks up. -/
def Command.lookup? : Command → Option Register
  | .resolve register => some register
  | _ => none

theorem sameListing_handleReading (p : Pad) (reading : Reading) :
    p.SameListing (p.handleReading reading).state := by
  unfold handleReading
  split
  · exact .refl p
  · refine ⟨rfl, ?_⟩
    simp only [Pad.shown, scheme, ReadingDecoder.scheme_decode]

theorem sameListing_onKey (down : Bool) (maps : KeyMaps) (key : Key) (p : Pad) :
    p.SameListing (p.onKey down maps key).state := by
  cases hbound : p.bound? maps key with
  | none =>
    rw [onKey_of_unbound hbound]
    exact .refl p
  | some b =>
    obtain ⟨notices, hkey⟩ := onKey_of_bound hbound down
    rw [hkey]
    exact ⟨rfl, rfl⟩

theorem sameListing_perform {cmd : Command} (h : cmd.lookup? = none) (p : Pad) :
    p.SameListing (p.perform cmd).state := by
  cases cmd with
  | resolve register => cases h
  | handleReading reading => exact p.sameListing_handleReading reading
  | keyDown maps key => exact sameListing_onKey true maps key p
  | keyUp maps key => exact sameListing_onKey false maps key p
  | forward kind actions => exact .refl p
  | moveMouse dx dy detect answer => exact .refl p
  | setNotify on => exact ⟨rfl, rfl⟩
  | reset => exact ⟨rfl, rfl⟩

end Pad

namespace Router

variable {r s t : Router} {k slot : Nat} {p : Pad} {device : Device} {register found : Register}
  {cmd : Command} {cmds : List Command} {seen : Nat → Option Register}

/-! ### What leaves all pads as they show -/

/-- The register is the same, and the slots hold the same devices and show the same of them. -/
structure SameListing (r s : Router) : Prop where
  register : s.register = r.register
  pads : PadsRel Pad.SameListing r s

theorem SameListing.of_pads_eq (hregister : s.register = r.register) (hpads : s.pads = r.pads) :
    r.SameListing s where
  register := hregister
  pads := .of_pads_eq Pad.SameListing.refl hpads

theorem SameListing.refl (r : Router) : r.SameListing r := .of_pads_eq rfl rfl

theorem SameListing.trans (h₁ : r.SameListing s) (h₂ : s.SameListing t) : r.SameListing t where
  register := h₂.register.trans h₁.register
  pads := .trans (fun _ _ _ => .trans) h₁.pads h₂.pads

theorem register_onPad {α : Type} (r : Router) (slot : Nat) (otherwise : α)
    (f : Pad → Outcome Pad α) : (r.onPad slot otherwise f).state.register = r.register := by
  unfold onPad
  split <;> rfl

theorem sameListing_onPad {α : Type} (r : Router) (slot : Nat) (otherwise : α)
    {f : Pad → Outcome Pad α} (hf : ∀ p : Pad, p.SameListing (f p).state) :
    r.SameListing (r.onPad slot otherwise f).state where
  register := register_onPad ..
  pads := .onPad Pad.SameListing.refl hf

theorem sameListing_onKey (r : Router) (down : Bool) (key : Key) :
    r.SameListing (r.onKey down key).state :=
  offerKey_induction (P := r.SameListing)
    (fun s slot hs => hs.trans (sameListing_onPad s slot false (Pad.sameListing_onKey down _ _)))
    Port.all (.refl r)

theorem sameListing_onMouse (r : Router) (slot : Nat) {f : Pad → Outcome Pad Bool}
    (hf : ∀ p : Pad, p.SameListing (f p).state) : r.SameListing (r.onMouse slot f).state := by
  refine sameListing_onPad r slot false fun p => ?_
  split
  · exact hf p
  · exact .refl p

theorem sameListing_processHid (r : Router) (location : String) (reading : Reading) :
    r.SameListing (r.processHid location reading).state := by
  unfold processHid
  split
  · exact .refl r
  · exact sameListing_onPad _ _ _ fun p => p.sameListing_handleReading reading

theorem sameListing_editKeys (r : Router) (slot : Nat) (f : KeyMap → KeyMap) :
    r.SameListing (r.editKeys slot f).1 := by
  unfold editKeys
  split <;> exact .of_pads_eq rfl rfl

theorem sameListing_setNotify (r : Router) (slot : Nat) (on : Bool) :
    r.SameListing (r.setNotify slot on) where
  register := rfl
  pads := .setNotify Pad.SameListing.refl (fun _ _ => ⟨rfl, rfl⟩) slot on

theorem sameListing_bindPort (r : Router) (slot : Nat) (port : Port) :
    r.SameListing (r.bindPort slot port).state where
  register := rfl
  pads := .bindPort Pad.SameListing.refl (fun _ _ => ⟨rfl, rfl⟩) slot port

theorem sameListing_unbindPort (r : Router) (port : Port) :
    r.SameListing (r.unbindPort port) where
  register := rfl
  pads := .unbindPort Pad.SameListing.refl (fun _ _ => ⟨rfl, rfl⟩) port

theorem sameListing_applyReservations (r : Router) (slot : Nat) :
    r.SameListing (r.applyReservations slot).state := by
  refine Outcome.forEach_induction (P := r.SameListing) (fun s port _ hs => ?_) (.refl r)
  split
  · exact hs.trans (sameListing_bindPort s slot port)
  · exact hs

/-- Whether a command may change the register, the devices in the slots or what their pads show. -/
def Command.touchesListing : Command → Bool
  | .arrive _ | .remove _ | .handle _ | .pump _ | .refreshSchemes | .editRegister _ => true
  | .pad _ cmd => cmd.lookup?.isSome
  | _ => false

theorem sameListing_perform (h : cmd.touchesListing = false) (r : Router) :
    r.SameListing (r.perform cmd).state := by
  cases cmd with
  | arrive | remove | handle | pump | refreshSchemes | editRegister => cases h
  | bindPort slot port => exact sameListing_bindPort r slot port
  | unbindPort port => exact sameListing_unbindPort r port
  | processHid location reading => exact sameListing_processHid r location reading
  | keyDown key => exact sameListing_onKey r true key
  | keyUp key => exact sameListing_onKey r false key
  | mouseMoved slot dx dy answer => exact sameListing_onMouse r slot .refl
  | mouseButtons slot actions => exact sameListing_onMouse r slot .refl
  | bindKey slot key action => exact sameListing_editKeys r slot _
  | unbindKey slot action => exact sameListing_editKeys r slot _
  | setNotify slot on => exact sameListing_setNotify r slot on
  | setDisconnectKeys on => exact .of_pads_eq rfl rfl
  | setReleaseMouseByShaking on => exact .of_pads_eq rfl rfl
  | editKeyMaps edit => exact .of_pads_eq rfl rfl
  | editBus edit => exact .of_pads_eq rfl rfl
  | pad slot cmd =>
    have hcmd : cmd.lookup? = none := by simpa [Command.touchesListing] using h
    exact sameListing_onPad r slot _ fun p => p.sameListing_perform hcmd

/-! ### Who looks something up -/

/-- The register that a command looks up for the pad in a slot: a refresh does it for all pads, an
arrival for the slot that the device gets, and a caller may have it done for one pad with a register
of his own. -/
def Command.lookup? (r : Router) (k : Nat) : Command → Option Register
  | .refreshSchemes => some r.register
  | .arrive device | .handle (.arrived device) =>
    if (r.arrive device).result = some k then some r.register else none
  | .pad slot cmd => if slot = k then cmd.lookup? else none
  | _ => none

/-- The commands that a command stands for: a source hands its events out one by one. -/
def Command.opened : Command → List Command
  | .pump events => events.map .handle
  | cmd => [cmd]

/-- The last register that some commands, none of which stands for others, look up for the pad in
a slot. -/
def latestLookup (r : Router) (k : Nat) : List Command → Option Register
  | [] => none
  | cmd :: rest => (latestLookup (r.perform cmd).state k rest).or (cmd.lookup? r k)

/-- A command that stands for no others. -/
def Command.Single (cmd : Command) : Prop := ∀ events, cmd ≠ .pump events

theorem single_of_mem_opened {single : Command} (h : single ∈ cmd.opened) : single.Single := by
  rintro events rfl
  cases cmd with
  | pump events => simp [Command.opened] at h
  | _ => simp [Command.opened] at h

theorem run_flatMap_opened (r : Router) (cmds : List Command) :
    r.run (cmds.flatMap Command.opened) = r.run cmds := by
  induction cmds generalizing r with
  | nil => rfl
  | cons cmd rest ih =>
    have hfirst : r.run cmd.opened = (r.perform cmd).state := by
      cases cmd with
      | pump events => exact r.run_map_handle events
      | _ => rfl
    rw [List.flatMap_cons, run_append, hfirst, ih, run_cons]

/-! ### What the pads show -/

/-- The pad of each device shows what the register that was seen for its slot says. -/
def Shows (r : Router) (seen : Nat → Option Register) : Prop :=
  ∀ k p device, r.pad? k = some p → p.device = some device →
    ∃ found, seen k = some found ∧ p.shown = found.resolve device.vendorId device.productId

theorem Shows.sameListing (h : r.Shows seen) (hrs : r.SameListing s) : s.Shows seen := by
  intro k q device hq hdevice
  obtain ⟨p, hp, hpq⟩ := hrs.pads.exists_left hq
  obtain ⟨found, hseen, hshown⟩ := h k p device hp (hpq.device.symm.trans hdevice)
  exact ⟨found, hseen, hpq.shown.trans hshown⟩

theorem Shows.remove (h : r.Shows seen) (location : String) :
    (r.remove location).state.Shows seen := by
  intro k p device hp hdevice
  rw [pad?_remove, Option.filter_eq_some_iff] at hp
  exact h k p device hp.1 hdevice

theorem Shows.arrive (h : r.Shows seen) (device : Device) :
    (r.arrive device).state.Shows fun k => (Command.lookup? r k (.arrive device)).or (seen k) := by
  rcases r.arrive_cases device with ⟨slot, -, hstate, hresult⟩ | ⟨-, hstate, hresult⟩
  · rw [hstate, seat_state]
    refine sameListing ?_ (sameListing_applyReservations ..)
    intro k p other hp hdevice
    rw [pad?_placed] at hp
    simp only [Command.lookup?, hresult]
    split at hp
    next hk =>
      obtain rfl := Option.some.inj hp
      obtain rfl := Option.some.inj hdevice
      rw [if_pos (congrArg some hk.symm)]
      exact ⟨r.register, rfl, rfl⟩
    next hk =>
      have hother : ¬ some slot = some k := fun hsome => hk (Option.some.inj hsome).symm
      rw [if_neg hother]
      exact h k p other hp hdevice
  · rw [hstate]
    intro k p other hp hdevice
    simp only [Command.lookup?, hresult]
    exact h k p other hp hdevice

/-- A refresh looks up the register for all pads. -/
theorem shows_refreshSchemes (r : Router) :
    r.refreshSchemes.state.Shows fun _ => some r.register := by
  intro k q device hq hdevice
  rw [pad?_refreshSchemes] at hq
  obtain ⟨p, -, rfl⟩ := Option.map_eq_some_iff.mp hq
  have hsame : p.device = some device :=
    (p.undisturbed_resolve r.register).device.symm.trans hdevice
  refine ⟨r.register, rfl, ?_⟩
  rw [Pad.state_resolve hsame, Pad.shown_showing]

theorem Shows.pad (h : r.Shows seen) (slot : Nat) (cmd : Pad.Command) :
    (r.perform (.pad slot cmd)).state.Shows fun k =>
      (Command.lookup? r k (.pad slot cmd)).or (seen k) := by
  intro k q device hq hdevice
  change (r.onPad slot .done fun p => p.perform cmd).state.pad? k = some q at hq
  rw [pad?_onPad] at hq
  simp only [Command.lookup?]
  split at hq
  next hk =>
    obtain ⟨p, hp, rfl⟩ := Option.map_eq_some_iff.mp hq
    have hsame : p.device = some device :=
      (p.perform_undisturbed cmd).device.symm.trans hdevice
    rw [if_pos hk.symm]
    cases hlookup : cmd.lookup? with
    | none =>
      have hshown := (p.sameListing_perform hlookup).shown
      rw [hshown]
      exact h k p device (hk ▸ hp) hsame
    | some register =>
      cases cmd with
      | resolve =>
        obtain rfl := Option.some.inj hlookup
        exact ⟨_, rfl, congrArg Pad.shown (Pad.state_resolve hsame)⟩
      | _ => cases hlookup
  next hk =>
    rw [if_neg (Ne.symm hk)]
    exact h k q device hq hdevice

/-- A command moves the slots on to the register that it looks up for them. -/
theorem Shows.perform (h : r.Shows seen) (hsingle : cmd.Single) :
    (r.perform cmd).state.Shows fun k => (cmd.lookup? r k).or (seen k) := by
  cases cmd with
  | arrive device => exact h.arrive device
  | remove location => exact h.remove location
  | handle event =>
    cases event with
    | arrived device => exact h.arrive device
    | removed location => exact h.remove location
    | value location reading => exact h.sameListing (sameListing_processHid r location reading)
  | pump events => exact absurd rfl (hsingle events)
  | refreshSchemes => exact shows_refreshSchemes r
  | editRegister edit => exact h
  | pad slot cmd => exact h.pad slot cmd
  | _ => exact h.sameListing (sameListing_perform rfl r)

theorem Shows.run (h : r.Shows seen) (hsingle : ∀ cmd ∈ cmds, cmd.Single) :
    (r.run cmds).Shows fun k => (latestLookup r k cmds).or (seen k) := by
  induction cmds generalizing r seen with
  | nil => exact h
  | cons cmd rest ih =>
    have hfirst := h.perform (hsingle cmd List.mem_cons_self)
    have hrest := ih hfirst fun c hc => hsingle c (List.mem_cons_of_mem _ hc)
    simp only [latestLookup, Option.or_assoc]
    exact hrest

theorem shows_start (c : Config) (register : Register) (seen : Nat → Option Register) :
    (start c register).state.Shows seen :=
  fun k p device hp hdevice => absurd ⟨k, p, hp, hdevice⟩ (vacant_start c register device)

/-- In every run the pad of a device shows what the register said at the latest look-up. -/
theorem shows_run_start (c : Config) (register : Register) (cmds : List Command) :
    ((start c register).state.run cmds).Shows fun k =>
      latestLookup (start c register).state k (cmds.flatMap Command.opened) := by
  have hsingle : ∀ cmd ∈ cmds.flatMap Command.opened, cmd.Single := by
    intro cmd hcmd
    obtain ⟨whole, -, hmem⟩ := List.mem_flatMap.mp hcmd
    exact single_of_mem_opened hmem
  have hshows := (shows_start c register fun _ => none).run hsingle
  rw [run_flatMap_opened] at hshows
  simpa only [Option.or_none] using hshows

/-! ### Pads that are up to date -/

/-- The pad of each device shows what the register says of it. -/
def UpToDate (r : Router) : Prop := r.Shows fun _ => some r.register

/-- The command brings no other data on devices than a register has. -/
def Command.KeepsTo (register : Register) : Command → Prop
  | .editRegister edit => edit register = register
  | .pad _ cmd => ∀ found, cmd.lookup? = some found → found = register
  | _ => True

theorem keepsTo_of_mem_opened {single : Command} (h : cmd.KeepsTo register)
    (hmem : single ∈ cmd.opened) : single.KeepsTo register := by
  cases cmd with
  | pump events =>
    obtain ⟨event, -, rfl⟩ := List.mem_map.mp hmem
    exact trivial
  | _ =>
    obtain rfl := List.mem_singleton.mp hmem
    exact h

theorem register_handle (r : Router) (event : HidEvent) :
    (r.handle event).state.register = r.register := by
  cases event with
  | arrived device =>
    change (r.arrive device).state.register = r.register
    rcases r.arrive_cases device with ⟨slot, -, hstate, -⟩ | ⟨-, hstate, -⟩
    · rw [hstate, seat_state]
      exact (sameListing_applyReservations ..).register
    · rw [hstate]
  | removed location => rfl
  | value location reading => exact (sameListing_processHid r location reading).register

theorem register_perform (h : cmd.KeepsTo r.register) :
    (r.perform cmd).state.register = r.register := by
  cases cmd with
  | arrive device => exact r.register_handle (.arrived device)
  | remove location => rfl
  | handle event => exact r.register_handle event
  | pump events =>
    exact Outcome.forEach_induction (P := fun s : Router => s.register = r.register)
      (fun s event _ hs => (s.register_handle event).trans hs) rfl
  | refreshSchemes => rfl
  | editRegister edit => exact h
  | pad slot cmd => exact register_onPad ..
  | _ => exact (sameListing_perform rfl r).register

theorem lookup?_of_keepsTo (h : cmd.KeepsTo r.register)
    (hlookup : cmd.lookup? r k = some found) : found = r.register := by
  unfold Command.lookup? at hlookup
  split at hlookup
  · exact (Option.some.inj hlookup).symm
  · obtain ⟨-, hfound⟩ := Option.ite_none_right_eq_some.mp hlookup
    exact (Option.some.inj hfound).symm
  · obtain ⟨-, hfound⟩ := Option.ite_none_right_eq_some.mp hlookup
    exact (Option.some.inj hfound).symm
  · obtain ⟨-, hfound⟩ := Option.ite_none_right_eq_some.mp hlookup
    exact h found hfound
  · cases hlookup

theorem UpToDate.perform (h : r.UpToDate) (hsingle : cmd.Single) (hkeeps : cmd.KeepsTo r.register) :
    (r.perform cmd).state.UpToDate := by
  have hseen : ∀ k, (cmd.lookup? r k).or (some r.register) = some r.register := by
    intro k
    cases hlookup : cmd.lookup? r k with
    | none => rfl
    | some found => rw [lookup?_of_keepsTo hkeeps hlookup, Option.some_or]
  have hshows := Shows.perform h hsingle
  simp only [hseen] at hshows
  rw [UpToDate, register_perform hkeeps]
  exact hshows

theorem UpToDate.run (h : r.UpToDate) (hkeeps : ∀ cmd ∈ cmds, cmd.KeepsTo r.register) :
    (r.run cmds).UpToDate := by
  rw [← run_flatMap_opened]
  refine (run_induction (P := fun s => s.register = r.register ∧ s.UpToDate)
    (fun s single hmem ⟨hregister, hs⟩ => ?_) ⟨rfl, h⟩).2
  obtain ⟨cmd, hcmd, hopened⟩ := List.mem_flatMap.mp hmem
  have hsame : single.KeepsTo s.register :=
    hregister ▸ keepsTo_of_mem_opened (hkeeps cmd hcmd) hopened
  exact ⟨(register_perform hsame).trans hregister, hs.perform (single_of_mem_opened hopened) hsame⟩

/-- A refresh of pads that are up to date does nothing. -/
theorem UpToDate.refreshSchemes_eq (h : r.UpToDate) : r.refreshSchemes = ⟨r, 0, {}⟩ := by
  have hpad : ∀ k p, r.pads.get? k = some p → p.resolve r.register = ⟨p, false, {}⟩ := by
    intro k p hp
    cases hdevice : p.device with
    | none => exact Pad.resolve_of_no_device hdevice
    | some device =>
      obtain ⟨_, hsome, hshown⟩ := h k p device hp hdevice
      obtain rfl := Option.some.inj hsome
      exact Pad.resolve_of_shown hdevice hshown
  have hresolved : (r.pads.map fun _ p => p.resolve r.register) =
      r.pads.map fun _ p => (⟨p, false, {}⟩ : Outcome Pad Bool) := by
    refine Table.ext_get? fun k => ?_
    rw [Table.get?_map, Table.get?_map]
    cases hp : r.pads.get? k with
    | none => rfl
    | some p => rw [Option.map_some, Option.map_some, hpad k p hp]
  simp only [refreshSchemes, hresolved]
  simp [Table.map, Table.values, Function.comp_def, List.flatMap_map, Trace.ofNotices]

/-! ### Refreshing -/

theorem upToDate_refreshSchemes (r : Router) : r.refreshSchemes.state.UpToDate :=
  shows_refreshSchemes r

theorem result_refreshSchemes (r : Router) :
    r.refreshSchemes.result = r.pads.values.countP (Pad.outdated r.register) := by
  simp only [refreshSchemes, Table.values, Table.map, List.map_map, List.countP_map]
  refine List.countP_congr fun e _ => ?_
  simp only [Function.comp_apply, Pad.result_resolve]

/-- The register is looked up for pads of devices only. -/
theorem pad?_refreshSchemes_of_builtin (hp : r.pad? k = some p) (hdevice : p.device = none) :
    r.refreshSchemes.state.pad? k = some p := by
  rw [pad?_refreshSchemes, hp, Option.map_some, Pad.resolve_of_no_device hdevice]

theorem pad?_refreshSchemes_of_device (hp : r.pad? k = some p) (hdevice : p.device = some device) :
    r.refreshSchemes.state.pad? k =
      some (p.showing (r.register.resolve device.vendorId device.productId)) := by
  rw [pad?_refreshSchemes, hp, Option.map_some, Pad.state_resolve hdevice]

/-- **A refresh brings the pads up to date.** In every state that can be reached, whatever has been
done to the register by then, the result of a refresh is the number of pads whose scheme is not the
one that the register has for their device. The pads in the first three slots stay as they are; any
other pad is the pad of a device and shows afterwards what the register says of it; nothing else has
changed, in the pad or outside the pads. From then on, until other data on devices come in, to
refresh does nothing at all. A change of the register by itself changes no pad: in every run the pad
of a device shows what the register said when it was last looked up for the pad, by a refresh, by
the arrival of the device, or by a caller for this pad alone. -/
theorem refresh_brings_up_to_date (c : Config) (register : Register) (cmds : List Command) :
    let first := (start c register).state
    let r := first.run cmds
    let refreshed := r.refreshSchemes.state
    r.refreshSchemes.result = r.pads.values.countP (Pad.outdated r.register) ∧
    (∀ k p, r.pad? k = some p → k < 3 → refreshed.pad? k = some p) ∧
    (∀ k p, r.pad? k = some p → 3 ≤ k → ∃ device, p.device = some device ∧
      let found := r.register.resolve device.vendorId device.productId
      refreshed.pad? k = some (p.showing found) ∧
        (p.showing found).name = found.name.getD (device.product.getD externalName)) ∧
    (∀ k, r.pad? k = none → refreshed.pad? k = none) ∧
    { refreshed with pads := r.pads } = r ∧
    (∀ more : List Command, (∀ cmd ∈ more, cmd.KeepsTo r.register) →
      let later := refreshed.run more
      later.refreshSchemes = ⟨later, 0, {}⟩) ∧
    (∀ edit, (r.perform (.editRegister edit)).state = { r with register := edit r.register }) ∧
    ∀ k p device, r.pad? k = some p → p.device = some device →
      ∃ found, latestLookup first k (cmds.flatMap Command.opened) = some found ∧
        p.shown = found.resolve device.vendorId device.productId := by
  intro first r refreshed
  have hseats : r.WellSeated (max c.slotLimit.toNat builtinSlots) :=
    wellSeated_run (wellSeated_start c register) cmds
  refine ⟨result_refreshSchemes r, fun k p hp hk => ?_, fun k p hp hk => ?_, fun k hk => ?_, rfl,
    fun more hkeeps => ?_, fun _ => rfl, shows_run_start c register cmds⟩
  · obtain ⟨b, hb⟩ : ∃ b, builtinPads.get? k = some b := by
      rw [← Option.ne_none_iff_exists', Ne, builtinPads_get?_eq_none_iff]
      omega
    obtain ⟨q, hq, hsame⟩ := hseats.builtin k b hb
    obtain rfl : q = p := Option.some.inj (hq.symm.trans hp)
    exact pad?_refreshSchemes_of_builtin hp (hsame.device.trans (device_builtin hb))
  · obtain ⟨-, device, hpad⟩ := hseats.device k p hp (builtinPads_get?_eq_none_iff.mpr hk)
    exact ⟨device, hpad.source, pad?_refreshSchemes_of_device hp hpad.source,
      Pad.name_showing hpad.source _⟩
  · rw [pad?_refreshSchemes, hk, Option.map_none]
  · exact ((upToDate_refreshSchemes r).run hkeeps).refreshSchemes_eq

end Router

end PadRouter

import PadRouter.Proofs.Router.Interleavings

/-!
# Held keys across a rebind

A pad hears a key only while it is on a port, and only if no pad before it has the key to itself. Its
held flags are those of the events it has heard, which need not be the latest ones.

* `Move`, `Router.afterMoves` — requests about ports and key events, and the router after them.
* `IsDown` — a key whose latest event was that it went down.
* `Router.heard` — the events of a direction that the pad in a slot has heard.
* `Router.pad?_afterMoves` — a held flag is the latest of these.
* `Config.KeepsHeldKeys` — to let a direction go pulls to the opposite one exactly while its key is
  down.
* `Router.downBeforeBinding` — a run after which it is not, if a table has both keys.
* `Router.held_keys_across_rebind` — where this is so, and what is so in any case.
-/

namespace PadRouter

/-- A request about a port, or a key that goes down or up. -/
inductive Move
  | port (request : PortRequest)
  | key (down : Bool) (key : Key)
  deriving DecidableEq, Repr

namespace Move

def command : Move → Router.Command
  | port request => request.command
  | key down k => (Input.key down k).command

/-- Whether the move makes a key go down or up. -/
def about? (k : Key) : Move → Option Bool
  | port _ => none
  | key down k' => if k'.sameCode k then some down else none

end Move

/-- The key went down in its latest event. -/
def IsDown (moves : List Move) (key : Key) : Prop :=
  (moves.filterMap (Move.about? key)).getLast? = some true

instance (moves : List Move) (key : Key) : Decidable (IsDown moves key) :=
  inferInstanceAs (Decidable (_ = _))

/-- Some key of the table pulls to a direction. -/
def KeyMap.PullsTo (m : KeyMap) (d : Pull) : Prop :=
  ∃ key b, m.lookup key = some b ∧ b.pull? = some d

namespace Router

variable {r : Router} {slot : Nat} {p : Pad} {d : Pull} {key other : Key} {t : Taker}
  {down : Bool} {moves : List Move} {c : Config} {register : Register}

/-- The router after some moves. -/
def afterMoves (r : Router) (moves : List Move) : Router := r.run (moves.map Move.command)

/-- What the pad in a slot hears of a direction in a move. -/
def hears? (slot : Nat) (d : Pull) (r : Router) : Move → Option Bool
  | .port _ => none
  | .key down key =>
    if (r.handlers key).any fun t => t.slot = slot && t.action.pull? = some d then some down
    else none

/-- The events of a direction that the pad in a slot hears, in order. -/
def heard (slot : Nat) (d : Pull) : Router → List Move → List Bool
  | _, [] => []
  | r, move :: rest =>
    (r.hears? slot d move).toList ++ heard slot d (r.perform move.command).state rest

/-- The pad in a slot gets every event of a key. -/
def Attends (slot : Nat) (key : Key) (r : Router) (moves : List Move) : Prop :=
  ∀ before down k after, moves = before ++ .key down k :: after → k.sameCode key = true →
    ∃ t ∈ (r.afterMoves before).handlers k, t.slot = slot

/-! ### One move -/

theorem hears?_of_mem (h : t ∈ r.handlers key) :
    r.hears? t.slot d (.key down key) = if t.action.pull? = some d then some down else none := by
  have hany : ((r.handlers key).any fun u => u.slot = t.slot && u.action.pull? = some d) = true ↔
      t.action.pull? = some d := by
    simp only [List.any_eq_true, Bool.and_eq_true, decide_eq_true_eq]
    constructor
    · rintro ⟨u, hu, hslot, hpull⟩
      rwa [← eq_of_slot_eq (mem_of_mem_handlers hu) (mem_of_mem_handlers h) hslot]
    · exact fun hpull => ⟨t, h, rfl, hpull⟩
  by_cases hpull : t.action.pull? = some d
  · rw [hears?, if_pos (hany.mpr hpull), if_pos hpull]
  · rw [hears?, if_neg fun h => hpull (hany.mp h), if_neg hpull]

theorem hears?_of_forall_ne (h : ∀ t ∈ r.handlers key, t.slot ≠ slot) :
    r.hears? slot d (.key down key) = none := by
  rw [hears?, if_neg]
  simp only [List.any_eq_true, Bool.and_eq_true, decide_eq_true_eq]
  rintro ⟨t, ht, hslot, -⟩
  exact h t ht hslot

/-- The pad in a slot gets an event of a key or does not. -/
theorem handler_cases (hp : r.pad? slot = some p) (key : Key) :
    (∃ t ∈ r.handlers key, t.slot = slot ∧ t.pad = p ∧ p.bound? r.keyMaps key = some t.action) ∨
      ∀ t ∈ r.handlers key, t.slot ≠ slot := by
  by_cases hgets : ∃ t ∈ r.handlers key, t.slot = slot
  · obtain ⟨t, ht, rfl⟩ := hgets
    obtain ⟨hpad, hbound⟩ := spec_of_mem_handlers ht
    obtain rfl : t.pad = p := Option.some.inj (hpad.symm.trans hp)
    exact .inl ⟨t, ht, rfl, rfl, hbound⟩
  · push Not at hgets
    exact .inr hgets

theorem keyMaps_move (r : Router) (move : Move) :
    (r.perform move.command).state.keyMaps = r.keyMaps := by
  cases move with
  | port request => cases request <;> rfl
  | key down key =>
    change ({ (r.perform (Input.key down key).command).state with pads := r.pads } : Router).keyMaps = _
    rw [rest_input]

/-- What a pad hears moves its flags, and nothing else does. -/
theorem pad?_move (hp : r.pad? slot = some p) (move : Move) :
    ∃ q, (r.perform move.command).state.pad? slot = some q ∧ q.keyMap = p.keyMap ∧
      ∀ d, q.held.get d = (r.hears? slot d move).getD (p.held.get d) := by
  cases move with
  | port request =>
    -- a pad that changes its port keeps everything else
    cases request with
    | bind k port =>
      change ∃ q, (r.bindPort k port).state.pad? slot = some q ∧ _
      rw [pad?_bindPort, hp, Option.map_some]
      exact ⟨_, rfl, by split_ifs <;> rfl, fun d => by split_ifs <;> rfl⟩
    | leave port =>
      change ∃ q, (r.unbindPort port).pad? slot = some q ∧ _
      rw [pad?_unbindPort, hp, Option.map_some]
      exact ⟨_, rfl, by split_ifs <;> rfl, fun d => by split_ifs <;> rfl⟩
  | key down key =>
    have hstate : (r.perform (Move.key down key).command).state = (r.onKey down key).state :=
      congrArg Outcome.state (perform_key r down key)
    rw [hstate]
    rcases handler_cases hp key with ⟨t, ht, rfl, rfl, -⟩ | hnone
    · refine ⟨_, pad?_onKey_of_mem ht, rfl, fun d => ?_⟩
      rw [Pad.strike, HeldKeys.get_strike, hears?_of_mem ht]
      split_ifs <;> rfl
    · refine ⟨p, (pad?_onKey_of_ne hnone).trans hp, rfl, fun d => ?_⟩
      rw [hears?_of_forall_ne hnone, Option.getD_none]

/-! ### Many moves -/

/-- A held flag is the latest event of its direction that the pad has heard. -/
theorem pad?_afterMoves (hp : r.pad? slot = some p) (moves : List Move) :
    ∃ q, (r.afterMoves moves).pad? slot = some q ∧ q.keyMap = p.keyMap ∧
      ∀ d, q.held.get d = (r.heard slot d moves).getLast?.getD (p.held.get d) := by
  induction moves generalizing r p with
  | nil => exact ⟨p, hp, rfl, fun _ => rfl⟩
  | cons move rest ih =>
    obtain ⟨q, hq, hkeys, hflags⟩ := pad?_move hp move
    obtain ⟨q', hq', hkeys', hflags'⟩ := ih hq
    refine ⟨q', hq', hkeys'.trans hkeys, fun d => ?_⟩
    rw [hflags', hflags, heard, List.getLast?_append]
    cases (heard slot d (r.perform move.command).state rest).getLast? <;>
      cases r.hears? slot d move <;> rfl

theorem keyMaps_afterMoves (r : Router) (moves : List Move) :
    (r.afterMoves moves).keyMaps = r.keyMaps := by
  induction moves generalizing r with
  | nil => rfl
  | cons move rest ih => exact (ih _).trans (keyMaps_move r move)

theorem heard_eq_filterMap {f : Move → Option Bool}
    (h : ∀ before move after, moves = before ++ move :: after →
      (r.afterMoves before).hears? slot d move = f move) :
    r.heard slot d moves = moves.filterMap f := by
  induction moves generalizing r with
  | nil => rfl
  | cons move rest ih =>
    have hfirst : r.hears? slot d move = f move := h [] move rest rfl
    have hrest : heard slot d (r.perform move.command).state rest = rest.filterMap f :=
      ih fun before later after hsplit => h (move :: before) later after (congrArg _ hsplit)
    rw [heard, hfirst, hrest]
    cases hmove : f move with
    | none => rw [List.filterMap_cons_none hmove]; rfl
    | some down => rw [List.filterMap_cons_some hmove]; rfl

/-- A pad hears nothing of a direction that its table has no key for. -/
theorem heard_of_unbound (hp : r.pad? slot = some p)
    (h : ∀ key b, p.bound? r.keyMaps key = some b → b.pull? ≠ some d) :
    r.heard slot d moves = [] := by
  have hsilent : ∀ before move after, moves = before ++ move :: after →
      (r.afterMoves before).hears? slot d move = none := by
    intro before move after _
    obtain ⟨q, hq, hkeys, -⟩ := pad?_afterMoves hp before
    cases move with
    | port request => rfl
    | key down key =>
      rcases handler_cases hq key with ⟨t, ht, rfl, rfl, hbound⟩ | hnone
      · rw [Pad.bound?, hkeys, keyMaps_afterMoves] at hbound
        rw [hears?_of_mem ht, if_neg (h key _ hbound)]
      · exact hears?_of_forall_ne hnone
  rw [heard_eq_filterMap hsilent, List.filterMap_eq_nil_iff]
  exact fun _ _ => rfl

/-- A pad that attends to the one key of a direction hears exactly the events of the key. -/
theorem heard_of_attends (hp : r.pad? slot = some p)
    (honly : ∀ key, (∃ b, p.bound? r.keyMaps key = some b ∧ b.pull? = some d) ↔
      key.sameCode other = true)
    (h : r.Attends slot other moves) :
    r.heard slot d moves = moves.filterMap (Move.about? other) := by
  refine heard_eq_filterMap fun before move after hsplit => ?_
  obtain ⟨q, hq, hkeys, -⟩ := pad?_afterMoves hp before
  cases move with
  | port request => rfl
  | key down key =>
    rw [Move.about?]
    rcases handler_cases hq key with ⟨t, ht, rfl, rfl, hbound⟩ | hnone
    · have hkey : t.action.pull? = some d ↔ key.sameCode other = true := by
        rw [Pad.bound?, hkeys, keyMaps_afterMoves] at hbound
        rw [← honly key, Pad.bound?, hbound]
        simp
      rw [hears?_of_mem ht]
      simp only [hkey]
    · have hkey : ¬ key.sameCode other = true := by
        intro hkey
        obtain ⟨t, ht, hslot⟩ := h before down key after hsplit hkey
        exact hnone t ht hslot
      rw [hears?_of_forall_ne hnone, if_neg hkey]

/-! ### What a handler sends -/

/-- A pad that gets an event of a key makes one call, and nobody else makes any on its port. -/
theorem filter_calls_onKey (h : t ∈ r.handlers key) (down : Bool) :
    (r.onKey down key).trace.calls.filter (fun call => call.port = t.port) = [t.call down] := by
  have hports : (fun call : PortCall => decide (call.port = t.port)) ∘ Taker.call down =
      fun u => decide (u.port = t.port) := by
    funext u
    simp [Taker.call, Pad.port_call]
  rw [(r.onKey_spec down key).calls, List.filter_map, hports]
  exact congrArg (List.map (Taker.call down)) (filter_handlers h)

/-! ### From a configuration on -/

theorem keyMaps_start (c : Config) (register : Register) :
    (start c register).state.keyMaps = c.keyMaps := by
  refine Outcome.forEach_induction (P := fun r : Router => r.keyMaps = c.keyMaps)
    (fun r port _ hr => ?_) rfl
  split <;> exact hr

theorem held_start (hp : (start c register).state.pad? slot = some p) : p.held = {} := by
  suffices ∀ k p, (start c register).state.pad? k = some p → p.held = {} from this slot p hp
  refine Outcome.forEach_induction (P := fun r : Router => ∀ k p, r.pad? k = some p → p.held = {})
    (fun r port _ hr => ?_) fun k p hp => ?_
  · split
    · intro k q hq
      rw [pad?_bindPort] at hq
      obtain ⟨p, hp, rfl⟩ := Option.map_eq_some_iff.mp hq
      have hheld := hr k p hp
      split_ifs <;> exact hheld
    · exact hr
  · have hall : ∀ e ∈ builtinPads.entries, e.2.held = {} := by decide
    exact hall (k, p) (Table.get?_eq_some_iff_mem.mp hp)

/-- Only built-in pads get key events. -/
theorem WellSeated.exists_builtin {limit : Nat} (h : r.WellSeated limit) (ht : t ∈ r.handlers key) :
    ∃ b, builtinPads.get? t.slot = some b ∧ b.SameSource t.pad := by
  obtain ⟨hpad, hbound⟩ := spec_of_mem_handlers ht
  cases hbuiltin : builtinPads.get? t.slot with
  | none =>
    obtain ⟨-, device, hdevice⟩ := h.device t.slot t.pad hpad hbuiltin
    simp [Pad.bound?, hdevice.keyMap] at hbound
  | some b =>
    obtain ⟨q, hq, hsame⟩ := h.builtin t.slot b hbuiltin
    obtain rfl : q = t.pad := Option.some.inj (hq.symm.trans hpad)
    exact ⟨b, rfl, hsame⟩

theorem wellSeated_afterMoves (c : Config) (register : Register) (moves : List Move) :
    ((start c register).state.afterMoves moves).WellSeated (max c.slotLimit.toNat builtinSlots) :=
  wellSeated_run (wellSeated_start c register) _

/-- A handler was there from the start and holds what it has heard. -/
theorem exists_pad_start (h : t ∈ ((start c register).state.afterMoves moves).handlers key) :
    ∃ p, (start c register).state.pad? t.slot = some p ∧ p.keyMap = t.pad.keyMap ∧
      ∀ d, t.pad.held.get d = true ↔
        ((start c register).state.heard t.slot d moves).getLast? = some true := by
  obtain ⟨b, hb, -⟩ := (wellSeated_afterMoves c register moves).exists_builtin h
  obtain ⟨p, hp, -⟩ := (wellSeated_start c register).builtin t.slot b hb
  obtain ⟨q, hq, hkeys, hflags⟩ := pad?_afterMoves hp moves
  obtain rfl : q = t.pad := Option.some.inj (hq.symm.trans (spec_of_mem_handlers h).1)
  refine ⟨p, hp, hkeys.symm, fun d => ?_⟩
  have hfree : p.held.get d = false := by
    rw [held_start hp]
    cases d <;> rfl
  rw [hflags, hfree]
  cases ((start c register).state.heard t.slot d moves).getLast? <;> simp

/-- To let a direction go pulls to the opposite one if that was down when the pad last heard of it. -/
theorem calls_of_handler (h : t ∈ ((start c register).state.afterMoves moves).handlers key)
    (hkind : t.pad.kind = .joystick) (hpull : t.action.pull? = some d) :
    (((start c register).state.afterMoves moves).keyUp key).trace.calls.filter
        (fun call => call.port = t.port) =
      [.joystick t.port
        (if ((start c register).state.heard t.slot d.opposite moves).getLast? = some true
          then d.opposite.press else d.release)] := by
  obtain ⟨-, -, -, hflags⟩ := exists_pad_start h
  rw [keyUp_eq, filter_calls_onKey h, Taker.call, hkind, HeldKeys.action_strike_of_pull hpull]
  simp only [Bool.false_eq_true, if_false, hflags]
  rfl

theorem builtin_of_keyMap {id : KeyMapId} (h : id ≠ .mouse) :
    ∃ b, builtinPads.get? id.index = some b ∧ b.kind = .joystick ∧ b.keyMap = some id := by
  cases id with
  | mouse => exact absurd rfl h
  | keyset1 => exact ⟨_, rfl, rfl, rfl⟩
  | keyset2 => exact ⟨_, rfl, rfl, rfl⟩

theorem keyMap_ne_mouse {k : Nat} {b : Pad} (h : builtinPads.get? k = some b)
    (hkind : b.kind = .joystick) : b.keyMap ≠ some .mouse := by
  have hall : ∀ e ∈ builtinPads.entries, e.2.kind = .joystick → e.2.keyMap ≠ some .mouse := by decide
  exact hall (k, b) (Table.get?_eq_some_iff_mem.mp h) hkind

end Router

/-! ### The law and where it holds -/

/-- The key that the pad's table binds to the direction against `d` is down. -/
def Pad.OppositeDown (p : Pad) (maps : KeyMaps) (moves : List Move) (d : Pull) : Prop :=
  ∃ key b, p.bound? maps key = some b ∧ b.pull? = some d.opposite ∧ IsDown moves key

/-- Whenever a joystick that keys drive gets the event that a key of a direction goes up, it pulls to
the opposite direction if the key for that one is down, and lets the axis go otherwise. -/
def Config.KeepsHeldKeys (c : Config) : Prop :=
  ∀ (register : Register) (moves : List Move) (key : Key) (t : Router.Taker) (d : Pull),
    let r := (Router.start c register).state.afterMoves moves
    t ∈ r.handlers key → t.pad.kind = .joystick → t.action.pull? = some d →
      let calls := (r.keyUp key).trace.calls.filter fun call => call.port = t.port
      (t.pad.OppositeDown r.keyMaps moves d → calls = [.joystick t.port d.opposite.press]) ∧
      (¬ t.pad.OppositeDown r.keyMaps moves d → calls = [.joystick t.port d.release])

namespace Router

variable {c : Config} {register : Register} {id : KeyMapId} {d : Pull}

/-- A key goes down while no pad is on a port, and then the pad of a table is bound to port 1. -/
def downBeforeBinding (id : KeyMapId) (key : Key) : List Move :=
  [.port (.leave .one), .port (.leave .two), .key true key, .port (.bind id.index .one)]

/-- The router of a configuration with no pad on a port. -/
def withoutPads (c : Config) (register : Register) : Router :=
  ((start c register).state.unbindPort .one).unbindPort .two

theorem port_withoutPads {k : Nat} {p : Pad} (hp : (withoutPads c register).pad? k = some p) :
    p.port = none := by
  rw [withoutPads, pad?_unbindPort, pad?_unbindPort, Option.map_map] at hp
  obtain ⟨q, -, rfl⟩ := Option.map_eq_some_iff.mp hp
  cases hport : q.port with
  | none => simp [hport]
  | some port => cases port <;> simp [hport, Pad.setPort]

theorem isDown_downBeforeBinding (id : KeyMapId) (key : Key) :
    IsDown (downBeforeBinding id key) key := by
  simp [downBeforeBinding, IsDown, List.findSome?, Move.about?, Key.sameCode]

theorem heard_downBeforeBinding (slot : Nat) (d : Pull) (key : Key) :
    heard slot d (start c register).state (downBeforeBinding id key) = [] := by
  have hsilent : hears? slot d (withoutPads c register) (.key true key) = none := by
    refine hears?_of_forall_ne fun t ht => ?_
    rw [handlers_of_unbound fun _ _ => port_withoutPads] at ht
    cases ht
  change [] ++ ([] ++ ((hears? slot d (withoutPads c register) (.key true key)).toList ++ [])) = []
  rw [hsilent]
  rfl

/-- The pad that has been bound in the end gets all keys of its table. -/
theorem exists_handler_downBeforeBinding (c : Config) (register : Register) (hid : id ≠ .mouse)
    (other : Key) :
    ∃ p : Pad, p.kind = .joystick ∧ (∀ key, p.bound? c.keyMaps key = (c.keyMaps.get id).lookup key) ∧
      ∀ key b, (c.keyMaps.get id).lookup key = some b →
        ⟨id.index, p, .one, b⟩ ∈
          ((start c register).state.afterMoves (downBeforeBinding id other)).handlers key := by
  let r := (start c register).state.afterMoves (downBeforeBinding id other)
  have hmaps : r.keyMaps = c.keyMaps := (keyMaps_afterMoves _ _).trans (keyMaps_start c register)
  obtain ⟨built, hbuilt, hkind, hkeys⟩ := builtin_of_keyMap hid
  obtain ⟨p, hp, hsame⟩ :=
    (wellSeated_afterMoves c register (downBeforeBinding id other)).builtin id.index built hbuilt
  have hbound : ∀ key, p.bound? c.keyMaps key = (c.keyMaps.get id).lookup key := by
    intro key
    rw [Pad.bound?, hsame.keyMap, hkeys]
    rfl
  have hport : p.port = some .one := by
    change (((withoutPads c register).onKey true other).state.bindPort id.index .one).state.pad?
      id.index = some p at hp
    rw [pad?_bindPort] at hp
    obtain ⟨q, -, rfl⟩ := Option.map_eq_some_iff.mp hp
    simp [Pad.setPort]
  have hslot : r.slotOn .one = some id.index :=
    (slotOn_eq_some_iff (follows_run_start c register _)).mpr ⟨p, hp, hport⟩
  refine ⟨p, hsame.kind.trans hkind, hbound, fun key b hkey => ?_⟩
  refine mem_handlers_of_one (taker?_eq_some_iff.mpr ⟨hslot, hp, rfl, ?_⟩)
  rw [Pad.bound?_plain, hmaps, hbound, hkey]

/-- With keys for both directions of an axis, the one that went down before its pad was bound is
down without the pad knowing. -/
theorem not_keepsHeldKeys (hid : id ≠ .mouse) (hd : (c.keyMaps.get id).PullsTo d)
    (hopposite : (c.keyMaps.get id).PullsTo d.opposite) : ¬ c.KeepsHeldKeys := by
  intro hkeeps
  obtain ⟨key, b, hkey, hpull⟩ := hd
  obtain ⟨other, b', hother, hpull'⟩ := hopposite
  obtain ⟨p, hkind, hbound, hgets⟩ := exists_handler_downBeforeBinding c .shipped hid other
  have ht := hgets key b hkey
  have hmaps := (keyMaps_afterMoves _ (downBeforeBinding id other)).trans (keyMaps_start c .shipped)
  have hdown : p.OppositeDown c.keyMaps (downBeforeBinding id other) d :=
    ⟨other, b', (hbound other).trans hother, hpull', isDown_downBeforeBinding id other⟩
  have hclaimed := (hkeeps .shipped _ key _ d ht hkind hpull).1 (hmaps.symm ▸ hdown)
  rw [calls_of_handler ht hkind hpull, heard_downBeforeBinding] at hclaimed
  cases d <;> cases hclaimed

/-- A table with one direction of each axis at most gives its pad nothing to hold against. -/
theorem keepsHeldKeys_of_oneSided
    (h : ∀ id, id ≠ .mouse → ∀ d, ¬ ((c.keyMaps.get id).PullsTo d ∧
      (c.keyMaps.get id).PullsTo d.opposite)) : c.KeepsHeldKeys := by
  intro register moves key t d r ht hkind hpull calls
  obtain ⟨b, hb, hsame⟩ := (wellSeated_afterMoves c register moves).exists_builtin ht
  obtain ⟨p, hp, hkeys, -⟩ := exists_pad_start ht
  obtain ⟨id, hid, hlookup⟩ := Option.bind_eq_some_iff.mp (spec_of_mem_handlers ht).2
  have hmaps : r.keyMaps = c.keyMaps := (keyMaps_afterMoves _ moves).trans (keyMaps_start c register)
  have hjoystick : id ≠ .mouse := by
    rintro rfl
    exact keyMap_ne_mouse hb (hsame.kind.symm.trans hkind) (hsame.keyMap.symm.trans hid)
  have hnone : ∀ k a, t.pad.bound? c.keyMaps k = some a → a.pull? ≠ some d.opposite := by
    intro k a hbound hpull'
    rw [Pad.bound?, hid] at hbound
    rw [hmaps] at hlookup
    exact h id hjoystick d ⟨⟨key, t.action, hlookup, hpull⟩, k, a, hbound, hpull'⟩
  refine ⟨fun hdown => ?_, fun _ => ?_⟩
  · obtain ⟨k, a, hbound, hpull', -⟩ := hdown
    rw [hmaps] at hbound
    exact absurd hpull' (hnone k a hbound)
  · have hheard : heard t.slot d.opposite (start c register).state moves = [] := by
      refine heard_of_unbound hp fun k a hbound => ?_
      rw [Pad.bound?, hkeys, keyMaps_start] at hbound
      exact hnone k a hbound
    have hcalls := calls_of_handler ht hkind hpull
    rw [hheard] at hcalls
    exact hcalls

/-- **Held keys across a rebind.** That letting a direction go pulls to the opposite one exactly
while its key is down holds of the runs of a configuration only where it says nothing: no table of a
joystick has keys for both directions of an axis. In every configuration a pad goes by the latest
event of the opposite direction that it has heard; so a pad that gets every event of the one key for
that direction does what the key says. -/
theorem held_keys_across_rebind (c : Config) :
    (c.KeepsHeldKeys ↔ ∀ id, id ≠ .mouse → ∀ d, ¬ ((c.keyMaps.get id).PullsTo d ∧
      (c.keyMaps.get id).PullsTo d.opposite)) ∧
    ∀ (register : Register) (moves : List Move) (key : Key) (t : Taker) (d : Pull),
      let first := (start c register).state
      let r := first.afterMoves moves
      t ∈ r.handlers key → t.pad.kind = .joystick → t.action.pull? = some d →
        let calls := (r.keyUp key).trace.calls.filter fun call => call.port = t.port
        calls = [.joystick t.port
          (if (first.heard t.slot d.opposite moves).getLast? = some true then d.opposite.press
            else d.release)] ∧
        ∀ other, (∀ k, (∃ b, t.pad.bound? r.keyMaps k = some b ∧ b.pull? = some d.opposite) ↔
            k.sameCode other = true) → first.Attends t.slot other moves →
          calls = [.joystick t.port
            (if IsDown moves other then d.opposite.press else d.release)] := by
  refine ⟨⟨fun hkeeps id hid d hboth => ?_, keepsHeldKeys_of_oneSided⟩, ?_⟩
  · exact not_keepsHeldKeys hid hboth.1 hboth.2 hkeeps
  · intro register moves key t d first r ht hkind hpull calls
    have hcalls := calls_of_handler ht hkind hpull
    refine ⟨hcalls, fun other honly hattends => ?_⟩
    obtain ⟨p, hp, hkeys, -⟩ := exists_pad_start ht
    have hheard : first.heard t.slot d.opposite moves = moves.filterMap (Move.about? other) := by
      refine heard_of_attends hp (fun k => ?_) hattends
      rw [← honly k, keyMaps_afterMoves, Pad.bound?, Pad.bound?, hkeys]
    rw [hheard] at hcalls
    exact hcalls

/-- The right cursor key goes down before key set 1 is on port 1. When the left one goes up then, the
stick is centred, although the right one is still down. -/
theorem key_down_before_binding_is_missed :
    let moves : List Move := [.key true ⟨0x7C, {}⟩, .port (.bind 1 .one), .key true ⟨0x7B, {}⟩]
    IsDown moves ⟨0x7C, {}⟩ ∧
      (((start {} .shipped).state.afterMoves moves).keyUp ⟨0x7B, {}⟩).trace.calls =
        [.joystick .one .releaseX] ∧
      ¬ Config.KeepsHeldKeys {} := by
  refine ⟨by decide, rfl, ?_⟩
  have hkeyset : KeyMapId.keyset1 ≠ .mouse := by decide
  exact not_keepsHeldKeys (d := .left) hkeyset ⟨⟨0x7B, {}⟩, .pullLeft, rfl, rfl⟩
    ⟨⟨0x7C, {}⟩, .pullRight, rfl, rfl⟩

end Router

end PadRouter

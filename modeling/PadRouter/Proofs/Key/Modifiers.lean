import PadRouter.Proofs.Key.OneToOne

/-!
# The modifiers of a bound key

Keys go by their codes, and the modifiers of a binding are there to be shown and stored. Which ones
an entry shows after its key is bound again depends on what the key was bound to before.

* `KeyMap.bindingAt?` — the binding of a code.
* `KeyMap.Replaces` — binding a key leaves that key, modifiers included, as the entry of its code.
* `KeyMap.modifiersAfter` — the modifiers that the entry shows in fact.
* `KeyMap.modifiers_foldl_bind` — they stay for as long as the code goes from action to action.
* `KeyMap.replaces_iff_after_edits` — an edited table replaces the entry of a code that has the same
  action already, or the same modifiers, and no other.
-/

namespace PadRouter

namespace KeyMap

/-- The binding of a code. -/
def bindingAt? (m : KeyMap) (code : UInt16) : Option KeyBinding :=
  m.bindings.find? fun b => b.key.code == code

/-- Binding a key replaces the entry of its code: the key is shown as it was given, in the list of
bindings as well as for the action. -/
def Replaces (m : KeyMap) (key : Key) (action : Bindable) : Prop :=
  (m.bind key action).bindingAt? key.code = some ⟨key, action⟩ ∧
    (m.bind key action).keyFor? action = some key

/-- The modifiers that the entry of a key shows after it is bound: those of the old entry, if that
has another action. -/
def modifiersAfter (m : KeyMap) (key : Key) (action : Bindable) : Modifiers :=
  match m.bindingAt? key.code with
  | some old => if old.action = action then key.modifiers else old.key.modifiers
  | none => key.modifiers

variable {m : KeyMap} {key : Key} {action : Bindable} {code : UInt16} {old b : KeyBinding}

/-! ### Entries -/

theorem bindingAt?_eq_some_iff :
    m.bindingAt? code = some b ↔ b ∈ m.bindings ∧ b.key.code = code := by
  rw [bindingAt?, Table.find?_eq_some_iff_of_unique, beq_iff_eq]
  intro a ha b hb hcode hcode'
  exact Table.eq_of_key_eq m.compare_codes ha hb ((eq_of_beq hcode).trans (eq_of_beq hcode').symm)

theorem bindingAt?_eq (m : KeyMap) (code : UInt16) :
    m.bindingAt? code = (m.table.get? code).map fun e => ⟨⟨code, e.1⟩, e.2⟩ := by
  refine Option.ext fun b => ?_
  rw [bindingAt?_eq_some_iff, Option.map_eq_some_iff]
  constructor
  · rintro ⟨hmem, rfl⟩
    exact ⟨(b.key.modifiers, b.action), mem_bindings_iff.1 hmem, rfl⟩
  · rintro ⟨e, hget, rfl⟩
    exact ⟨mem_bindings_iff.2 hget, rfl⟩

/-- The action is first taken from the key that has it, and only what is left there counts. -/
theorem modifiersAfter_eq (m : KeyMap) (key : Key) (action : Bindable) :
    m.modifiersAfter key action =
      (((m.unbind action).table.get? key.code).map (·.1)).getD key.modifiers := by
  rw [modifiersAfter, bindingAt?_eq, get?_unbind]
  cases m.table.get? key.code with
  | none => rfl
  | some e => by_cases h : e.2 = action <;> simp [Option.filter, h]

theorem bindingAt?_bind_self (m : KeyMap) (key : Key) (action : Bindable) :
    (m.bind key action).bindingAt? key.code =
      some ⟨⟨key.code, m.modifiersAfter key action⟩, action⟩ := by
  rw [bindingAt?_eq, get?_bind, if_pos rfl, modifiersAfter_eq]
  rfl

theorem bindingAt?_bind_of_ne (m : KeyMap) (action : Bindable) (h : code ≠ key.code) :
    (m.bind key action).bindingAt? code =
      (m.bindingAt? code).filter fun old => old.action ≠ action := by
  rw [bindingAt?_eq, bindingAt?_eq, get?_bind, if_neg h, get?_unbind]
  cases m.table.get? code with
  | none => rfl
  | some e => by_cases h : e.2 = action <;> simp [Option.filter, h]

theorem OneKey.keyFor?_bind (h : m.OneKey) (key : Key) (action : Bindable) :
    (m.bind key action).keyFor? action = some ⟨key.code, m.modifiersAfter key action⟩ := by
  rw [(h.bind key action).keyFor?_eq_some_iff]
  exact (bindingAt?_eq_some_iff.mp (bindingAt?_bind_self m key action)).1

/-! ### Replacing an entry -/

theorem modifiersAfter_eq_iff :
    m.modifiersAfter key action = key.modifiers ↔
      ∀ old, m.bindingAt? key.code = some old →
        old.action = action ∨ old.key.modifiers = key.modifiers := by
  rw [modifiersAfter]
  cases m.bindingAt? key.code with
  | none => simp
  | some old =>
    by_cases haction : old.action = action
    · simp [haction]
    · simp [haction]

theorem OneKey.replaces_iff (h : m.OneKey) :
    m.Replaces key action ↔ ∀ old, m.bindingAt? key.code = some old →
      old.action = action ∨ old.key.modifiers = key.modifiers := by
  have hkey : (⟨key.code, m.modifiersAfter key action⟩ : Key) = key ↔
      m.modifiersAfter key action = key.modifiers := by
    cases key
    simp
  rw [Replaces, bindingAt?_bind_self, h.keyFor?_bind, Option.some_inj, Option.some_inj,
    KeyBinding.mk.injEq, hkey, ← modifiersAfter_eq_iff]
  simp

/-- A code that goes from one action to another keeps its modifiers all along the way. -/
theorem modifiers_foldl_bind {binds : List KeyBinding} (hentry : m.bindingAt? code = some old)
    (hcode : ∀ b ∈ binds, b.key.code = code)
    (hchange : (old.action :: binds.map KeyBinding.action).IsChain (· ≠ ·)) :
    ((binds.foldl (fun m b => m.bind b.key b.action) m).bindingAt? code).map KeyBinding.key =
      some old.key := by
  induction binds generalizing m old with
  | nil => rw [List.foldl_nil, hentry, Option.map_some]
  | cons b rest ih =>
    obtain ⟨rfl, hrest⟩ := List.forall_mem_cons.mp hcode
    obtain ⟨hne, hchain⟩ := List.isChain_cons_cons.mp hchange
    have hmodifiers : m.modifiersAfter b.key b.action = old.key.modifiers := by
      rw [modifiersAfter, hentry]
      exact if_neg hne
    have hold : old.key = ⟨b.key.code, old.key.modifiers⟩ := by
      rw [← (bindingAt?_eq_some_iff.mp hentry).2]
    have hnext := bindingAt?_bind_self m b.key b.action
    rw [hmodifiers, ← hold] at hnext
    have hstays := ih hnext hrest hchain
    exact hstays

/-- What binding a key does to the entries of a table. -/
structure Rebinds (m : KeyMap) : Prop where
  replaces : ∀ key action, m.Replaces key action ↔ ∀ old ∈ m.bindings, old.key.code = key.code →
    old.action = action ∨ old.key.modifiers = key.modifiers
  bindingAt : ∀ key action, (m.bind key action).bindingAt? key.code =
    some ⟨⟨key.code, m.modifiersAfter key action⟩, action⟩
  keyFor : ∀ key action, (m.bind key action).keyFor? action =
    some ⟨key.code, m.modifiersAfter key action⟩
  others : ∀ key action code, code ≠ key.code →
    (m.bind key action).bindingAt? code =
      (m.bindingAt? code).filter fun old => old.action ≠ action
  stays : ∀ old ∈ m.bindings, ∀ binds : List KeyBinding,
    (∀ b ∈ binds, b.key.code = old.key.code) →
    (old.action :: binds.map KeyBinding.action).IsChain (· ≠ ·) →
    ((binds.foldl (fun m b => m.bind b.key b.action) m).bindingAt? old.key.code).map
      KeyBinding.key = some old.key

theorem OneKey.rebinds (h : m.OneKey) : m.Rebinds where
  replaces key action := by
    rw [h.replaces_iff]
    simp only [bindingAt?_eq_some_iff, and_imp]
  bindingAt := m.bindingAt?_bind_self
  keyFor := h.keyFor?_bind
  others _ action _ hne := m.bindingAt?_bind_of_ne action hne
  stays _ hold _ := modifiers_foldl_bind (bindingAt?_eq_some_iff.mpr ⟨hold, rfl⟩)

/-- **When a key replaces its entry.** In every edited table, be it on its own or one of the three,
a key that is bound is shown as it was given if and only if its code was free, had the same action,
or had the same modifiers. A code that had another action keeps the modifiers it was bound with, and
it keeps them for as long as it goes from one action to another. All other entries stay, but for the
one that had the action. -/
theorem replaces_iff_after_edits (edits : List Edit) (shared : List (KeyMapId × Edit))
    (id : KeyMapId) :
    (edited edits).Rebinds ∧ ((KeyMaps.edited shared).get id).Rebinds :=
  ⟨(oneKey_edited edits).rebinds, (KeyMaps.oneKey_edited shared id).rebinds⟩

/-- A key is bound together with Shift and then, without it, to another action. Shift stays. -/
theorem rebound_key_keeps_shift :
    let shifted : Key := ⟨3, { shift := true }⟩
    let m := edited [.bind shifted .pullUp]
    (m.bind { code := 3 } .pullDown).bindings = [⟨shifted, .pullDown⟩] ∧
      (m.bind { code := 3 } .pullDown).keyFor? .pullDown = some shifted ∧
      ¬ m.Replaces { code := 3 } .pullDown ∧
      ¬ ∀ edits key action, (edited edits).Replaces key action := by
  intro shifted m
  have hkept : ¬ m.Replaces { code := 3 } .pullDown := by
    rintro ⟨hentry, -⟩
    exact absurd hentry (by decide)
  exact ⟨by decide, by decide, hkept, fun hall => hkept (hall _ _ _)⟩

end KeyMap

end PadRouter

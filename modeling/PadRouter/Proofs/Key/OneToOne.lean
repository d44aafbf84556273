import Mathlib.Data.List.Nodup
import Mathlib.Data.List.Perm.Subperm
import PadRouter.Proofs.Key.Edits
import PadRouter.Proofs.Table.Order

/-!
# Keys and actions are matched one to one

* `KeyMap.lookup_unbind`, `KeyMap.lookup_bind` — what an edit does to look-up.
* `KeyMap.OneKey.keyFor?_eq_some_iff`, `KeyMap.OneKey.mergeSort_eq` — the key of an action and the
  list of bindings can be told from the bindings in any order.
* `KeyMap.OneToOne` — what one key for an action means for a table as it is seen from outside.
* `KeyMap.oneToOne_after_edits` — every edited table is so.
-/

namespace PadRouter

namespace KeyMap

variable {m : KeyMap} {key : Key} {action : Bindable} {b : KeyBinding} {l : List KeyBinding}

/-! ### Look-up -/

theorem lookup_eq_some_iff :
    m.lookup key = some action ↔
      ∃ modifiers, (⟨⟨key.code, modifiers⟩, action⟩ : KeyBinding) ∈ m.bindings := by
  rw [lookup, Option.map_eq_some_iff]
  constructor
  · rintro ⟨entry, hentry, rfl⟩
    exact ⟨entry.1, mem_bindings_iff.2 hentry⟩
  · rintro ⟨modifiers, hmem⟩
    have hget : m.table.get? key.code = some (modifiers, action) := mem_bindings_iff.1 hmem
    exact ⟨(modifiers, action), hget, rfl⟩

theorem lookup_unbind (m : KeyMap) (action : Bindable) (key : Key) :
    (m.unbind action).lookup key = if m.lookup key = some action then none else m.lookup key := by
  rw [lookup, lookup, get?_unbind]
  rcases m.table.get? key.code with _ | entry
  · rfl
  · by_cases h : entry.2 = action <;> simp [Option.filter, h]

/-- The key gets the action, every other key that had it goes without, and all other keys keep what
they had. -/
theorem lookup_bind (m : KeyMap) (key : Key) (action : Bindable) (other : Key) :
    (m.bind key action).lookup other =
      if other.code = key.code then some action
      else if m.lookup other = some action then none else m.lookup other := by
  rw [← lookup_unbind]
  simp only [lookup, get?_bind]
  split <;> rfl

/-! ### The list of bindings -/

theorem length_bindings (m : KeyMap) : m.bindings.length = m.size := by
  simp [bindings, size, Table.size]

theorem compare_codes (m : KeyMap) :
    (m.bindings.map fun b => b.key.code).Pairwise fun c c' => compare c c' = .lt := by
  have hkeys : (m.bindings.map fun b => b.key.code) = m.table.keys := by
    simp [bindings, Table.keys]
  rw [hkeys]
  exact m.table.pairwise_keys

theorem pairwise_codes (m : KeyMap) :
    (m.bindings.map fun b => b.key.code).Pairwise (· < ·) :=
  m.compare_codes.imp Std.compare_eq_lt.1

/-- Sorting by the code gives the list of bindings, whatever the order was. -/
theorem mergeSort_eq (h : l.Perm m.bindings) :
    l.mergeSort (fun b b' => b.key.code ≤ b'.key.code) = m.bindings := by
  have hle : (fun b b' : KeyBinding => decide (b.key.code ≤ b'.key.code)) = fun b b' =>
      (compare b.key.code b'.key.code).isLE := by
    funext b b'
    rw [Bool.eq_iff_iff, decide_eq_true_eq, Std.isLE_compare]
  rw [hle]
  exact Table.mergeSort_of_keys h m.compare_codes

theorem OneKey.nodup_actions (h : m.OneKey) : (m.bindings.map KeyBinding.action).Nodup :=
  List.pairwise_map.2 (h.pairwise_bindings.imp fun hne => hne.2)

theorem OneKey.size_le (h : m.OneKey) : m.size ≤ 7 := by
  have hall : ∀ action : Bindable, action ∈ Bindable.all := by
    intro action
    cases action <;> decide
  have hlength := (List.subperm_of_subset h.nodup_actions fun action _ => hall action).length_le
  rw [List.length_map, length_bindings] at hlength
  exact hlength

/-- A search by the action finds the only binding of the action, whatever the order. -/
theorem OneKey.find?_eq_some_iff (h : m.OneKey) (hl : l.Perm m.bindings) :
    l.find? (fun b => b.action == action) = some b ↔ b ∈ m.bindings ∧ b.action = action := by
  rw [Table.find?_eq_some_iff_of_unique, hl.mem_iff, beq_iff_eq]
  intro a ha b hb hactionA hactionB
  have heq : a.action = b.action := (eq_of_beq hactionA).trans (eq_of_beq hactionB).symm
  exact List.inj_on_of_nodup_map h.nodup_actions (hl.subset ha) (hl.subset hb) heq

theorem keyFor?_eq (m : KeyMap) (action : Bindable) :
    m.keyFor? action = (m.bindings.find? fun b => b.action == action).map KeyBinding.key := by
  simp only [keyFor?, Table.find?, bindings, List.find?_map, Option.map_map]
  rfl

theorem OneKey.keyFor?_eq_some_iff (h : m.OneKey) :
    m.keyFor? action = some key ↔ (⟨key, action⟩ : KeyBinding) ∈ m.bindings := by
  rw [keyFor?_eq, Option.map_eq_some_iff]
  constructor
  · rintro ⟨b, hfind, rfl⟩
    obtain ⟨hb, rfl⟩ := (h.find?_eq_some_iff (List.Perm.refl _)).1 hfind
    exact hb
  · intro hmem
    exact ⟨_, (h.find?_eq_some_iff (List.Perm.refl _)).2 ⟨hmem, rfl⟩, rfl⟩

/-- An action that is bound loses its only key. -/
theorem OneKey.countBound_eq (h : m.OneKey) (action : Bindable) :
    m.countBound action = if (m.keyFor? action).isSome then 1 else 0 := by
  have hcount : m.countBound action = (m.bindings.map KeyBinding.action).count action := by
    have hsplit := List.length_eq_countP_add_countP (l := m.table.entries)
      fun e => e.2.2 != action
    have hrest : (m.unbind action).size = m.table.entries.countP fun e => e.2.2 != action :=
      List.countP_eq_length_filter.symm
    rw [countBound, hrest, size, Table.size, hsplit, Nat.add_sub_cancel_left, bindings,
      List.map_map, List.count, List.countP_map]
    exact List.countP_congr fun e _ => by simp
  have hmem : action ∈ m.bindings.map KeyBinding.action ↔ (m.keyFor? action).isSome = true := by
    rw [Option.isSome_iff_exists, List.mem_map]
    simp only [h.keyFor?_eq_some_iff]
    constructor
    · rintro ⟨b, hb, rfl⟩
      exact ⟨b.key, hb⟩
    · rintro ⟨key, hb⟩
      exact ⟨_, hb, rfl⟩
  rw [hcount, h.nodup_actions.count]
  simp only [hmem]

/-! ### Tables from outside -/

/-- Keys and actions are matched one to one, and all that is told of a table comes from its
bindings, in whatever order they are kept. -/
structure OneToOne (m : KeyMap) : Prop where
  codes : (m.bindings.map fun b => b.key.code).Pairwise (· < ·)
  actions : (m.bindings.map KeyBinding.action).Nodup
  length : m.bindings.length = m.size
  size_le : m.size ≤ 7
  lookup : ∀ key action, m.lookup key = some action ↔
    ∃ modifiers, (⟨⟨key.code, modifiers⟩, action⟩ : KeyBinding) ∈ m.bindings
  keyFor : ∀ key action, m.keyFor? action = some key ↔ (⟨key, action⟩ : KeyBinding) ∈ m.bindings
  codeFor : ∀ key action, (m.keyFor? action).map Key.code = some key.code ↔
    m.lookup key = some action
  anyOrder : ∀ l : List KeyBinding, l.Perm m.bindings →
    l.mergeSort (fun b b' => b.key.code ≤ b'.key.code) = m.bindings ∧
      ∀ action, (l.find? fun b => b.action == action).map KeyBinding.key = m.keyFor? action
  unbind : ∀ action, m.countBound action = (if (m.keyFor? action).isSome then 1 else 0) ∧
    ∀ key, (m.unbind action).lookup key =
      if m.lookup key = some action then none else m.lookup key
  bind : ∀ key action other, (m.bind key action).lookup other =
    if other.code = key.code then some action
    else if m.lookup other = some action then none else m.lookup other

theorem OneKey.oneToOne (h : m.OneKey) : m.OneToOne where
  codes := m.pairwise_codes
  actions := h.nodup_actions
  length := m.length_bindings
  size_le := h.size_le
  lookup _ _ := lookup_eq_some_iff
  keyFor _ _ := h.keyFor?_eq_some_iff
  codeFor key action := by
    simp only [Option.map_eq_some_iff, h.keyFor?_eq_some_iff, lookup_eq_some_iff]
    constructor
    · rintro ⟨⟨_, modifiers⟩, hmem, rfl⟩
      exact ⟨modifiers, hmem⟩
    · rintro ⟨modifiers, hmem⟩
      exact ⟨⟨key.code, modifiers⟩, hmem, rfl⟩
  anyOrder l hl := by
    refine ⟨mergeSort_eq hl, fun action => ?_⟩
    have hfind : l.find? (fun b => b.action == action) =
        m.bindings.find? fun b => b.action == action := by
      refine Option.ext fun b => ?_
      rw [h.find?_eq_some_iff hl, h.find?_eq_some_iff (List.Perm.refl _)]
    rw [hfind, keyFor?_eq]
  unbind action := ⟨h.countBound_eq action, m.lookup_unbind action⟩
  bind := m.lookup_bind

/-- **Keys and actions are matched one to one**, whatever edits have been made to a table, be it on
its own or one of the three. -/
theorem oneToOne_after_edits :
    (∀ edits, (edited edits).OneToOne) ∧
      ∀ edits id, ((KeyMaps.edited edits).get id).OneToOne := by
  refine ⟨fun edits => ?_, fun edits id => ?_⟩
  · exact (oneKey_edited edits).oneToOne
  · exact (KeyMaps.oneKey_edited edits id).oneToOne

end KeyMap

end PadRouter

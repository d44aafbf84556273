import Mathlib.Data.List.Induction
import Mathlib.Tactic.SplitIfs
import PadRouter.Key.KeyMap

/-!
# Edited binding tables

* `KeyMap.Edit`, `KeyMap.edited` — the edits of a table, and the table that some edits lead to.
* `KeyMap.OneKey` — an action has at most one key; every edited table is so.
* `KeyMap.ofBindings_bindings` — such a table arises again, modifiers included, when its bindings
  are bound one after the other.
-/

namespace PadRouter

namespace KeyMap

/-- One edit of a table. -/
inductive Edit
  | bind (key : Key) (action : Bindable)
  | unbind (action : Bindable)
  | unbindKey (key : Key)
  | clear
  | reset (id : KeyMapId)
  | load (records : List KeyBinding)

/-- The table after one edit. -/
def apply (m : KeyMap) : Edit → KeyMap
  | .bind key action => m.bind key action
  | .unbind action => m.unbind action
  | .unbindKey key => m.unbindKey key
  | .clear => empty
  | .reset id => KeyMaps.get {} id
  | .load records => ofBindings records

/-- The table that some edits of the empty table lead to. -/
def edited (edits : List Edit) : KeyMap := edits.foldl apply empty

/-- No two codes have the same action. -/
def OneKey (m : KeyMap) : Prop :=
  ∀ code code' entry entry', m.table.get? code = some entry → m.table.get? code' = some entry' →
    entry.2 = entry'.2 → code = code'

variable {m : KeyMap} {key : Key} {action : Bindable}

theorem get?_unbind (m : KeyMap) (action : Bindable) (code : UInt16) :
    (m.unbind action).table.get? code = (m.table.get? code).filter fun e => e.2 != action :=
  Table.get?_filter m.table _ code

theorem get?_unbindKey (m : KeyMap) (key : Key) (code : UInt16) :
    (m.unbindKey key).table.get? code = if key.code = code then none else m.table.get? code := by
  simp only [unbindKey, Table.get?_erase, Std.LawfulEqCmp.compare_eq_iff_eq]

theorem get?_bind (m : KeyMap) (key : Key) (action : Bindable) (code : UInt16) :
    (m.bind key action).table.get? code =
      if code = key.code then
        some ((((m.unbind action).table.get? key.code).map (·.1)).getD key.modifiers, action)
      else (m.unbind action).table.get? code := by
  simp only [bind, Table.get?_insert, Std.LawfulEqCmp.compare_eq_iff_eq]

/-! ### One key for an action -/

theorem oneKey_empty : empty.OneKey := by
  intro code code' entry entry' h
  simp [empty] at h

/-- Taking entries away leaves one key for an action. -/
theorem OneKey.of_sub {m' : KeyMap} (h : m.OneKey)
    (hsub : ∀ code entry, m'.table.get? code = some entry → m.table.get? code = some entry) :
    m'.OneKey := fun code code' entry entry' hcode hcode' =>
  h code code' entry entry' (hsub _ _ hcode) (hsub _ _ hcode')

theorem OneKey.unbind (h : m.OneKey) (action : Bindable) : (m.unbind action).OneKey := by
  refine h.of_sub fun code entry hcode => ?_
  rw [get?_unbind] at hcode
  exact (Option.filter_eq_some_iff.1 hcode).1

theorem OneKey.unbindKey (h : m.OneKey) (key : Key) : (m.unbindKey key).OneKey := by
  refine h.of_sub fun code entry hcode => ?_
  rw [get?_unbindKey] at hcode
  split_ifs at hcode
  exact hcode

/-- Binding takes the action from any other key first. -/
theorem OneKey.bind (h : m.OneKey) (key : Key) (action : Bindable) :
    (m.bind key action).OneKey := by
  have hother {code : UInt16} {entry : Modifiers × Bindable}
      (hcode : (m.unbind action).table.get? code = some entry) : entry.2 ≠ action := by
    rw [get?_unbind] at hcode
    simpa using (Option.filter_eq_some_iff.1 hcode).2
  intro code code' entry entry' hcode hcode' heq
  rw [get?_bind] at hcode hcode'
  split_ifs at hcode hcode' with hc hc' hc'
  · rw [hc, hc']
  · obtain rfl := Option.some.inj hcode
    exact absurd heq.symm (hother hcode')
  · obtain rfl := Option.some.inj hcode'
    exact absurd heq (hother hcode)
  · exact h.unbind action code code' entry entry' hcode hcode' heq

theorem oneKey_ofBindings (l : List KeyBinding) : (ofBindings l).OneKey :=
  List.foldlRecOn l _ oneKey_empty fun _ hm b _ => hm.bind b.key b.action

theorem oneKey_shipped (id : KeyMapId) : (KeyMaps.get {} id).OneKey := by
  cases id with
  | mouse => exact oneKey_empty
  | keyset1 => exact oneKey_ofBindings _
  | keyset2 => exact oneKey_ofBindings _

theorem OneKey.apply (h : m.OneKey) (edit : Edit) : (m.apply edit).OneKey := by
  cases edit with
  | bind key action => exact h.bind key action
  | unbind action => exact h.unbind action
  | unbindKey key => exact h.unbindKey key
  | clear => exact oneKey_empty
  | reset id => exact oneKey_shipped id
  | load records => exact oneKey_ofBindings records

theorem oneKey_edited (edits : List Edit) : (edited edits).OneKey :=
  List.foldlRecOn edits _ oneKey_empty fun _ hm edit _ => hm.apply edit

/-! ### Binding the bindings again -/

/-- A new key takes a new action without disturbing anything, and keeps its modifiers. -/
theorem get?_bind_fresh (haction : ∀ code entry, m.table.get? code = some entry → entry.2 ≠ action)
    (hkey : m.table.get? key.code = none) (code : UInt16) :
    (m.bind key action).table.get? code =
      if code = key.code then some (key.modifiers, action) else m.table.get? code := by
  have hunbind (code : UInt16) : (m.unbind action).table.get? code = m.table.get? code := by
    rw [get?_unbind]
    cases hcode : m.table.get? code with
    | none => rfl
    | some entry => simp [Option.filter, haction code entry hcode]
  rw [get?_bind, hunbind, hunbind, hkey]
  rfl

/-- Bindings whose codes and actions all differ are exactly what is bound after them. -/
theorem get?_ofBindings {l : List KeyBinding}
    (h : l.Pairwise fun a b => a.key.code ≠ b.key.code ∧ a.action ≠ b.action) (code : UInt16)
    (entry : Modifiers × Bindable) :
    (ofBindings l).table.get? code = some entry ↔
      (⟨⟨code, entry.1⟩, entry.2⟩ : KeyBinding) ∈ l := by
  induction l using List.reverseRecOn generalizing code entry with
  | nil => simp [ofBindings, empty]
  | append_singleton l b ih =>
    obtain ⟨hl, -, hb⟩ := List.pairwise_append.1 h
    -- the last binding meets neither its code nor its action among those before it
    have hfresh (code : UInt16) (entry : Modifiers × Bindable)
        (hcode : (ofBindings l).table.get? code = some entry) :
        code ≠ b.key.code ∧ entry.2 ≠ b.action :=
      hb _ ((ih hl code entry).1 hcode) b (List.mem_singleton_self b)
    have hkey : (ofBindings l).table.get? b.key.code = none := by
      by_contra hsome
      obtain ⟨entry, hentry⟩ := Option.ne_none_iff_exists'.1 hsome
      exact (hfresh _ entry hentry).1 rfl
    have hstep : ofBindings (l ++ [b]) = (ofBindings l).bind b.key b.action := by
      rw [ofBindings, List.foldl_append]
      rfl
    rw [hstep, get?_bind_fresh (fun code entry hcode => (hfresh code entry hcode).2) hkey]
    split_ifs with hcode
    · constructor
      · intro heq
        obtain rfl := Option.some.inj heq
        obtain rfl := hcode
        exact List.mem_append_right l (List.mem_singleton_self b)
      · intro hmem
        obtain hold | rfl := List.mem_append.1 hmem |>.imp id List.mem_singleton.1
        · exact absurd hcode (hb _ hold b (List.mem_singleton_self b)).1
        · rfl
    · rw [ih hl]
      refine ⟨List.mem_append_left [b], fun hmem => ?_⟩
      obtain hold | rfl := List.mem_append.1 hmem |>.imp id List.mem_singleton.1
      · exact hold
      · exact absurd rfl hcode

theorem OneKey.pairwise_bindings (h : m.OneKey) :
    m.bindings.Pairwise fun a b => a.key.code ≠ b.key.code ∧ a.action ≠ b.action := by
  refine List.pairwise_map.2 (m.table.ascending.imp_of_mem fun {a b} ha hb hlt => ?_)
  have hcode : a.1 ≠ b.1 := fun heq => by simp [heq] at hlt
  have ha' := Table.get?_eq_some_iff_mem.2 ha
  have hb' := Table.get?_eq_some_iff_mem.2 hb
  exact ⟨hcode, fun haction => hcode (h _ _ _ _ ha' hb' haction)⟩

theorem mem_bindings_iff {code : UInt16} {entry : Modifiers × Bindable} :
    (⟨⟨code, entry.1⟩, entry.2⟩ : KeyBinding) ∈ m.bindings ↔ m.table.get? code = some entry := by
  rw [Table.get?_eq_some_iff_mem, bindings, List.mem_map]
  constructor
  · rintro ⟨⟨code', modifiers, action⟩, hmem, heq⟩
    simp only [KeyBinding.mk.injEq, Key.mk.injEq] at heq
    obtain ⟨⟨rfl, rfl⟩, rfl⟩ := heq
    exact hmem
  · exact fun hmem => ⟨_, hmem, rfl⟩

/-- A table with one key for an action arises again when its bindings are bound in their order. -/
theorem ofBindings_bindings (h : m.OneKey) : ofBindings m.bindings = m := by
  have htable : (ofBindings m.bindings).table = m.table := by
    refine Table.ext_get? fun code => Option.ext fun entry => ?_
    rw [get?_ofBindings h.pairwise_bindings, mem_bindings_iff]
  cases m
  exact congrArg KeyMap.mk htable

end KeyMap

namespace KeyMaps

/-- The tables that some edits of the shipped tables lead to, each edit in the table it names. -/
def edited (edits : List (KeyMapId × KeyMap.Edit)) : KeyMaps :=
  edits.foldl (fun maps e => maps.set e.1 ((maps.get e.1).apply e.2)) {}

/-- An edit of one table leaves one key for an action in each of them. -/
theorem oneKey_set {maps : KeyMaps} (h : ∀ id, (maps.get id).OneKey) {m : KeyMap} (hm : m.OneKey)
    (id id' : KeyMapId) : ((maps.set id m).get id').OneKey := by
  by_cases hid : id' = id
  · rw [hid, get_set_self]
    exact hm
  · rw [get_set_of_ne _ _ hid]
    exact h id'

theorem oneKey_edited (edits : List (KeyMapId × KeyMap.Edit)) :
    ∀ id, ((edited edits).get id).OneKey :=
  List.foldlRecOn (motive := fun maps : KeyMaps => ∀ id, (maps.get id).OneKey) edits _
    KeyMap.oneKey_shipped fun _ hmaps e _ => oneKey_set hmaps ((hmaps e.1).apply e.2) e.1

end KeyMaps

end PadRouter

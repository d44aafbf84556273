import PadRouter.Proofs.Key.OneToOne

/-!
# Tables that are loaded from a list

The records of a list are bound one after the other. Each may take its key from an earlier action
and its action from an earlier key, and what it takes away may have taken something itself.

* `KeyBinding.Clashes` — two records have one code or one action.
* `KeyMap.BoundLast` — a record binds a code to an action, and no later one clashes with it.
* `KeyMap.lookup_foldl_bind` — what a list that is bound over a table leaves behind.
* `KeyMap.survivors` — the records that no later one clashes with.
* `KeyMap.last_record_wins` — the records that survive are the ones that are bound, and nothing else
  of a list matters.
-/

namespace PadRouter

/-- Two records cannot both be bound: they have one code or one action. -/
def KeyBinding.Clashes (a b : KeyBinding) : Prop := a.key.code = b.key.code ∨ a.action = b.action

instance (a b : KeyBinding) : Decidable (a.Clashes b) := inferInstanceAs (Decidable (_ ∨ _))

theorem KeyBinding.not_clashes_iff {a b : KeyBinding} :
    ¬ a.Clashes b ↔ a.key.code ≠ b.key.code ∧ a.action ≠ b.action := not_or

namespace KeyMap

/-- A record of the list binds a code to an action, and no later record has the code or the
action. -/
def BoundLast (l : List KeyBinding) (code : UInt16) (action : Bindable) : Prop :=
  ∃ before b after, l = before ++ b :: after ∧ b.key.code = code ∧ b.action = action ∧
    ∀ later ∈ after, later.key.code ≠ code ∧ later.action ≠ action

/-- The records that no later one clashes with. -/
def survivors : List KeyBinding → List KeyBinding
  | [] => []
  | b :: rest => if ∃ later ∈ rest, b.Clashes later then survivors rest else b :: survivors rest

variable {m m' : KeyMap} {key : Key} {action : Bindable} {code : UInt16} {b : KeyBinding}
  {l l' : List KeyBinding}

/-! ### Records that stay bound -/

theorem not_boundLast_nil : ¬ BoundLast [] code action := by
  rintro ⟨before, b, after, hsplit, -⟩
  simp at hsplit

/-- The first record stays bound only if none of the others clashes with it. -/
theorem boundLast_cons :
    BoundLast (b :: l) code action ↔ BoundLast l code action ∨
      (b.key.code = code ∧ b.action = action ∧
        ∀ later ∈ l, later.key.code ≠ code ∧ later.action ≠ action) := by
  constructor
  · rintro ⟨before, b', after, hsplit, hcode, haction, hlater⟩
    cases before with
    | nil =>
      obtain ⟨rfl, rfl⟩ := List.cons.inj hsplit
      exact .inr ⟨hcode, haction, hlater⟩
    | cons first front =>
      obtain ⟨-, rfl⟩ := List.cons.inj hsplit
      exact .inl ⟨front, b', after, rfl, hcode, haction, hlater⟩
  · rintro (⟨before, b', after, rfl, hcode, haction, hlater⟩ | ⟨hcode, haction, hlater⟩)
    · exact ⟨b :: before, b', after, rfl, hcode, haction, hlater⟩
    · exact ⟨[], b, l, rfl, hcode, haction, hlater⟩

theorem lookup_bind_eq_some_iff (m : KeyMap) (b : KeyBinding) (key : Key) (action : Bindable) :
    (m.bind b.key b.action).lookup key = some action ↔
      (b.key.code = key.code ∧ b.action = action) ∨
        (m.lookup key = some action ∧ b.key.code ≠ key.code ∧ b.action ≠ action) := by
  rw [lookup_bind]
  by_cases hcode : key.code = b.key.code
  · simp [hcode]
  · have hother : b.key.code ≠ key.code := Ne.symm hcode
    rw [if_neg hcode]
    by_cases hold : m.lookup key = some b.action
    · simp only [hold, if_true, reduceCtorEq, hother, false_and, false_or, Option.some.injEq,
        false_iff]
      rintro ⟨heq, -, hne⟩
      exact hne heq
    · rw [if_neg hold]
      simp only [hother, false_and, false_or, ne_eq, not_false_eq_true, true_and]
      refine ⟨fun h => ⟨h, ?_⟩, And.left⟩
      rintro rfl
      exact hold h

/-- A list that is bound over a table leaves the records that stay bound, and of the table what no
record clashes with. -/
theorem lookup_foldl_bind (m : KeyMap) (l : List KeyBinding) (key : Key) (action : Bindable) :
    (l.foldl (fun m b => m.bind b.key b.action) m).lookup key = some action ↔
      BoundLast l key.code action ∨
        (m.lookup key = some action ∧
          ∀ b ∈ l, b.key.code ≠ key.code ∧ b.action ≠ action) := by
  induction l generalizing m with
  | nil => simp [not_boundLast_nil]
  | cons b rest ih =>
    rw [List.foldl_cons, ih, lookup_bind_eq_some_iff, boundLast_cons, List.forall_mem_cons]
    tauto

theorem lookup_ofBindings (l : List KeyBinding) (key : Key) (action : Bindable) :
    (ofBindings l).lookup key = some action ↔ BoundLast l key.code action := by
  have hempty : empty.lookup key = none := rfl
  rw [ofBindings, lookup_foldl_bind, hempty]
  simp

/-! ### Survivors -/

theorem survivors_sublist (l : List KeyBinding) : (survivors l).Sublist l := by
  induction l with
  | nil => exact List.Sublist.refl _
  | cons b rest ih =>
    rw [survivors]
    split
    · exact ih.cons b
    · exact ih.cons_cons b

/-- Survivors do not clash. -/
theorem pairwise_survivors (l : List KeyBinding) :
    (survivors l).Pairwise fun a b => a.key.code ≠ b.key.code ∧ a.action ≠ b.action := by
  induction l with
  | nil => exact List.Pairwise.nil
  | cons b rest ih =>
    rw [survivors]
    split
    · exact ih
    next hclash =>
      refine List.pairwise_cons.mpr ⟨fun later hlater => ?_, ih⟩
      have hmem : later ∈ rest := (survivors_sublist rest).subset hlater
      exact KeyBinding.not_clashes_iff.mp fun h => hclash ⟨later, hmem, h⟩

theorem survivors_eq_self
    (h : l.Pairwise fun a b => a.key.code ≠ b.key.code ∧ a.action ≠ b.action) :
    survivors l = l := by
  induction l with
  | nil => rfl
  | cons b rest ih =>
    obtain ⟨hb, hrest⟩ := List.pairwise_cons.mp h
    have hfree : ¬ ∃ later ∈ rest, b.Clashes later := by
      rintro ⟨later, hmem, hclash⟩
      exact KeyBinding.not_clashes_iff.mpr (hb later hmem) hclash
    rw [survivors, if_neg hfree, ih hrest]

theorem boundLast_iff_mem_survivors :
    BoundLast l code action ↔ ∃ b ∈ survivors l, b.key.code = code ∧ b.action = action := by
  induction l with
  | nil => simp [not_boundLast_nil, survivors]
  | cons b rest ih =>
    rw [boundLast_cons, ih, survivors]
    split
    next hclash =>
      -- a later record clashes with the first one, which hence does not count
      refine or_iff_left ?_
      rintro ⟨rfl, rfl, hlater⟩
      obtain ⟨later, hmem, hcode | haction⟩ := hclash
      · exact (hlater later hmem).1 hcode.symm
      · exact (hlater later hmem).2 haction.symm
    next hclash =>
      have hlater : ∀ later ∈ rest, later.key.code ≠ b.key.code ∧ later.action ≠ b.action :=
        fun later hmem => (KeyBinding.not_clashes_iff.mp fun h => hclash ⟨later, hmem, h⟩).imp
          Ne.symm Ne.symm
      rw [List.exists_mem_cons_iff, or_comm]
      refine or_congr_left ⟨fun h => ⟨h.1, h.2.1⟩, ?_⟩
      rintro ⟨rfl, rfl⟩
      exact ⟨rfl, rfl, hlater⟩

/-! ### Tables that agree -/

/-- Tables agree if each key has the same action in both. -/
theorem agrees_iff : m.agrees m' = true ↔ ∀ key, m.lookup key = m'.lookup key := by
  have hentries (m : KeyMap) : (m.bindings.map fun b => (b.key.code, b.action)) =
      (m.table.map fun _ entry => entry.2).entries := by
    simp [bindings, Table.map]
  have hlookup (m : KeyMap) (key : Key) :
      m.lookup key = (m.table.map fun _ entry => entry.2).get? key.code := by
    rw [Table.get?_map]
    rfl
  rw [agrees, beq_iff_eq, hentries, hentries]
  constructor
  · intro heq key
    rw [hlookup, hlookup, Table.get?, heq, Table.get?]
  · intro hall
    have htable : (m.table.map fun _ entry => entry.2) = m'.table.map fun _ entry => entry.2 := by
      refine Table.ext_get? fun code => ?_
      have hcode := hall { code := code }
      rwa [hlookup, hlookup] at hcode
    rw [htable]

theorem agrees_ofBindings_iff :
    (ofBindings l).agrees (ofBindings l') = true ↔
      ∀ code action, BoundLast l code action ↔ BoundLast l' code action := by
  rw [agrees_iff]
  constructor
  · intro hall code action
    rw [← lookup_ofBindings l { code := code }, hall, lookup_ofBindings]
  · intro hall key
    refine Option.ext fun action => ?_
    rw [lookup_ofBindings, lookup_ofBindings, hall]

/-- **The last record wins**, both for a key and for an action. A loaded table binds a key to an
action if and only if some record does so and no later record has the key's code or the action. The
records that no later one clashes with do not clash among themselves, and if they alone are loaded,
in whatever order, each key has the same action. Two lists give each key the same action if and only
if the same pairs survive in them. -/
theorem last_record_wins (l : List KeyBinding) :
    (∀ key action, (ofBindings l).lookup key = some action ↔
      ∃ before b after, l = before ++ b :: after ∧ b.key.code = key.code ∧ b.action = action ∧
        ∀ later ∈ after, later.key.code ≠ key.code ∧ later.action ≠ action) ∧
    (survivors l).Sublist l ∧
    (survivors l).Pairwise (fun a b => a.key.code ≠ b.key.code ∧ a.action ≠ b.action) ∧
    (∀ l', l'.Perm (survivors l) → (ofBindings l').agrees (ofBindings l) = true) ∧
    ∀ l', (ofBindings l').agrees (ofBindings l) = true ↔
      ∀ code action, (∃ b ∈ survivors l', b.key.code = code ∧ b.action = action) ↔
        ∃ b ∈ survivors l, b.key.code = code ∧ b.action = action := by
  refine ⟨lookup_ofBindings l, survivors_sublist l, pairwise_survivors l, fun l' hl' => ?_,
    fun l' => ?_⟩
  · have hdistinct : l'.Pairwise fun a b => a.key.code ≠ b.key.code ∧ a.action ≠ b.action :=
      (hl'.pairwise_iff fun h => ⟨h.1.symm, h.2.symm⟩).mpr (pairwise_survivors l)
    rw [agrees_ofBindings_iff]
    intro code action
    rw [boundLast_iff_mem_survivors, boundLast_iff_mem_survivors, survivors_eq_self hdistinct]
    simp only [hl'.mem_iff]
  · simp only [agrees_ofBindings_iff, boundLast_iff_mem_survivors]

end KeyMap

end PadRouter

import Mathlib.Data.List.Nodup
import PadRouter.Tree.Basic

/-!
# Trees without their defaults

A stored record may leave out a field that has a default, as long as the field holds it.

* `Trims` — what is left of a tree when some such fields are left out, at any level.
* `Restores` — a value that is read from every tree which its own tree can be trimmed to.
* `Yields` — members off which the values of some fields can be read.
* `restores_record` — a record restores its value if the values of its fields are restored.
-/

namespace PadRouter

open Storable

/-- A tree that holds only leaves with a written form. -/
inductive Tree.Plain : Tree → Prop
  | null : Plain .null
  | bool (b : Bool) : Plain (.bool b)
  | int (n : Int) : Plain (.int n)
  | text (s : String) : Plain (.text s)
  | list {items : List Tree} : (∀ t ∈ items, Plain t) → Plain (.list items)
  | record {members : List (String × Tree)} : (∀ m ∈ members, Plain m.2) → Plain (.record members)

/-- What the trees of an `α` can be trimmed to. -/
class Trimmable (α : Type) where
  Trims : Tree → Tree → Prop

export Trimmable (Trims)

/-- A field of a record: the tree of its default, if it has one, and what its value can be trimmed
to. -/
structure Field where
  name : String
  default : Option Tree
  trims : Tree → Tree → Prop

namespace Field

/-- A field without a default. -/
def required (α : Type) [Trimmable α] (name : String) : Field := ⟨name, none, Trims α⟩

/-- A field with a default. -/
def optional {α : Type} [Storable α] [Trimmable α] (name : String) (default : α) : Field :=
  ⟨name, some (toTree default), Trims α⟩

end Field

/-- The members of a record when some are trimmed, and some that hold their defaults left out. -/
inductive Thins (fields : List Field) : List (String × Tree) → List (String × Tree) → Prop
  | nil : Thins fields [] []
  | keep {f : Field} {t t' : Tree} {ms ms' : List (String × Tree)} :
    f ∈ fields → f.trims t t' → Thins fields ms ms' →
      Thins fields ((f.name, t) :: ms) ((f.name, t') :: ms')
  | drop {f : Field} {t : Tree} {ms ms' : List (String × Tree)} :
    f ∈ fields → f.default = some t → Thins fields ms ms' → Thins fields ((f.name, t) :: ms) ms'

/-- A record is trimmed member by member. -/
def trimsRecord (fields : List Field) : Tree → Tree → Prop
  | .record ms, .record ms' => Thins fields ms ms'
  | _, _ => False

/-- A list is trimmed item by item. -/
def trimsList (item : Tree → Tree → Prop) : Tree → Tree → Prop
  | .list items, .list items' => List.Forall₂ item items items'
  | _, _ => False

/-- A value that is read, in every format, from whatever its tree can be trimmed to. -/
structure Restores {α : Type} [Storable α] [Trimmable α] (a : α) : Prop where
  whole : Trims α (toTree a) (toTree a)
  read {t : Tree} : Trims α (toTree a) t → t.Plain ∧ ∀ d, ofTree? d t = some a

variable {α : Type} [Storable α] [Trimmable α] {a b : α} {d : Dialect}

theorem Restores.eq_of_toTree (ha : Restores a) (hb : Restores b) (h : toTree a = toTree b) :
    a = b := by
  have hreadA : ofTree? ⟨false, fun _ => false⟩ (toTree a) = some a := (ha.read ha.whole).2 _
  have hreadB : ofTree? ⟨false, fun _ => false⟩ (toTree b) = some b := (hb.read hb.whole).2 _
  rw [h, hreadB] at hreadA
  exact (Option.some.inj hreadA).symm

/-! ### Slots of a record -/

/-- A field of a record with the value that stands in it. -/
structure Slot where
  {α : Type}
  [storable : Storable α]
  [trimmable : Trimmable α]
  name : String
  value : α
  default : Option α

attribute [instance] Slot.storable Slot.trimmable

namespace Slot

/-- The field of a slot. -/
def field (s : Slot) : Field := ⟨s.name, s.default.map toTree, Trims s.α⟩

/-- How a slot is written. -/
def member (s : Slot) : String × Tree := (s.name, toTree s.value)

/-- What is read for a slot off the tree that stands for it, if one does. -/
def take? (s : Slot) (d : Dialect) : Option Tree → Option s.α
  | some t => ofTree? d t
  | none => s.default

/-- The value of a slot and its default are restored. -/
def Sound (s : Slot) : Prop := Restores s.value ∧ ∀ a ∈ s.default, Restores a

end Slot

theorem thins_cons_iff {fields : List Field} {m : String × Tree} {ms ms' : List (String × Tree)} :
    Thins fields (m :: ms) ms' ↔ ∃ f ∈ fields, f.name = m.1 ∧
      ((∃ t ms'', f.trims m.2 t ∧ Thins fields ms ms'' ∧ ms' = (m.1, t) :: ms'') ∨
        (f.default = some m.2 ∧ Thins fields ms ms')) := by
  constructor
  · intro h
    cases h with
    | keep hf ht hms => exact ⟨_, hf, rfl, .inl ⟨_, _, ht, hms, rfl⟩⟩
    | drop hf ht hms => exact ⟨_, hf, rfl, .inr ⟨ht, hms⟩⟩
  · rintro ⟨f, hf, hname, ⟨t, ms'', ht, hms, rfl⟩ | ⟨ht, hms⟩⟩
    · obtain ⟨n, t₀⟩ := m
      obtain rfl : f.name = n := hname
      exact .keep hf ht hms
    · obtain ⟨n, t₀⟩ := m
      obtain rfl : f.name = n := hname
      exact .drop hf ht hms

theorem member?_of_not_mem {n : String} {ms : List (String × Tree)} (h : n ∉ ms.map Prod.fst) :
    Tree.member? n ms = none := by
  induction ms with
  | nil => rfl
  | cons m ms ih =>
    obtain ⟨hm, hms⟩ := not_or.1 (List.mem_cons.not.1 h)
    rw [Tree.member?, if_neg (Ne.symm hm), ih hms]

theorem member?_of_mem {n : String} {t : Tree} {ms : List (String × Tree)}
    (hnames : (ms.map Prod.fst).Nodup) (h : (n, t) ∈ ms) :
    Tree.member? n ms = some t := by
  induction ms with
  | nil => contradiction
  | cons m ms ih =>
    obtain ⟨hname, hnames⟩ := List.nodup_cons.1 hnames
    obtain rfl | hmem := List.mem_cons.1 h
    · exact if_pos rfl
    · have hne : m.1 ≠ n := fun heq => hname (heq ▸ List.mem_map_of_mem hmem)
      rw [Tree.member?, if_neg hne, ih hnames hmem]

/-- What is left of some slots: members that are read as the values of the slots. -/
structure Leaves (slots : List Slot) (ms : List (String × Tree)) : Prop where
  plain : ∀ m ∈ ms, m.2.Plain
  names : (ms.map Prod.fst).Sublist (slots.map Slot.name)
  read : ∀ s ∈ slots, ∀ d, s.take? d (Tree.member? s.name ms) = some s.value

variable {slots all : List Slot} {s : Slot} {ms : List (String × Tree)}

theorem Leaves.keep (h : Leaves slots ms) (hname : s.name ∉ slots.map Slot.name) {t : Tree}
    (ht : t.Plain ∧ ∀ d, ofTree? d t = some s.value) :
    Leaves (s :: slots) ((s.name, t) :: ms) where
  plain := List.forall_mem_cons.2 ⟨ht.1, h.plain⟩
  names := h.names.cons_cons s.name
  read := by
    refine List.forall_mem_cons.2 ⟨fun d => ?_, fun s' hs' d => ?_⟩
    · rw [Tree.member?, if_pos rfl]
      exact ht.2 d
    · have hne : s.name ≠ s'.name := fun heq => hname (heq ▸ List.mem_map_of_mem hs')
      rw [Tree.member?, if_neg hne]
      exact h.read s' hs' d

theorem Leaves.drop (h : Leaves slots ms) (hname : s.name ∉ slots.map Slot.name)
    (hs : s.default = some s.value) : Leaves (s :: slots) ms where
  plain := h.plain
  names := h.names.cons s.name
  read := by
    refine List.forall_mem_cons.2 ⟨fun d => ?_, h.read⟩
    rw [member?_of_not_mem fun hmem => hname (h.names.subset hmem)]
    exact hs

/-- Whatever is left out and trimmed, the values of the slots can be read from what is left. -/
theorem Thins.leaves (hall : (all.map Slot.name).Nodup) (hslots : slots.Sublist all)
    (hsound : ∀ s ∈ slots, s.Sound) (h : Thins (all.map Slot.field) (slots.map Slot.member) ms) :
    Leaves slots ms := by
  induction slots generalizing ms with
  | nil =>
    cases h
    exact ⟨by simp, by simp, by simp⟩
  | cons s slots ih =>
    obtain ⟨hs, hothers⟩ := List.forall_mem_cons.1 hsound
    have hnodup : ((s :: slots).map Slot.name).Nodup := (hslots.map Slot.name).nodup hall
    have hname : s.name ∉ slots.map Slot.name := (List.nodup_cons.1 hnodup).1
    obtain ⟨f, hf, hfname, hcases⟩ := thins_cons_iff.1 h
    -- names are unique, so the field with the name of the slot is its own
    obtain ⟨s', hs', rfl⟩ := List.mem_map.1 hf
    obtain rfl : s' = s :=
      List.inj_on_of_nodup_map hall hs' (hslots.subset List.mem_cons_self) hfname
    obtain ⟨t, ms', ht, hms, rfl⟩ | ⟨hdefault, hms⟩ := hcases
    · exact (ih (List.sublist_of_cons_sublist hslots) hothers hms).keep hname (hs.1.read ht)
    · refine (ih (List.sublist_of_cons_sublist hslots) hothers hms).drop hname ?_
      -- equal trees are read as equal values
      obtain ⟨a, ha, htree⟩ := Option.map_eq_some_iff.1 hdefault
      rw [ha, (hs.2 a ha).eq_of_toTree hs.1 htree]

theorem Thins.refl {fields : List Field}
    (h : ∀ m ∈ ms, ∃ f ∈ fields, f.name = m.1 ∧ f.trims m.2 m.2) : Thins fields ms ms := by
  induction ms with
  | nil => exact .nil
  | cons m ms ih =>
    obtain ⟨⟨f, hf, hname, ht⟩, hms⟩ := List.forall_mem_cons.1 h
    exact thins_cons_iff.2 ⟨f, hf, hname, .inl ⟨m.2, ms, ht, ih hms, rfl⟩⟩

/-! ### Reading what is left -/

/-- Members off which the values of some slots can be read, in whatever order they stand. -/
structure Yields (slots : List Slot) (ms : List (String × Tree)) : Prop where
  nodup : (ms.map Prod.fst).Nodup
  names : ∀ m ∈ ms, m.1 ∈ slots.map Slot.name
  read : ∀ s ∈ slots, ∀ d, s.take? d (Tree.member? s.name ms) = some s.value

theorem Leaves.yields (h : Leaves slots ms) (hnames : (slots.map Slot.name).Nodup) :
    Yields slots ms where
  nodup := h.names.nodup hnames
  names _ hm := h.names.subset (List.mem_map_of_mem hm)
  read := h.read

/-- What is left of some slots, as fields. -/
def fieldsOf (ms : List (String × Tree)) : Fields := ⟨false, fun n => Tree.member? n ms⟩

theorem Yields.fields? (h : Yields slots ms) (names : List String) :
    (Tree.record ms).fields? d names = some (fieldsOf ms) := by
  have honce (n : String) : Tree.occurrences n ms ≤ 1 := by
    have hcount := List.nodup_iff_count_le_one.1 h.nodup n
    rwa [List.count, List.countP_map] at hcount
  have hall : (names.all fun n => decide (Tree.occurrences n ms ≤ 1)) = true := by
    simp [honce]
  rw [Tree.fields?, if_pos hall]
  rfl

theorem Yields.withDefault (h : Yields slots ms) {n : String} {a default : α}
    (hs : ⟨n, a, some default⟩ ∈ slots) :
    Storable.withDefault d (fieldsOf ms) n default = some a := by
  have hread := h.read _ hs d
  simp only [Storable.withDefault, fieldsOf]
  cases hget : Tree.member? n ms with
  | none =>
    rw [hget] at hread
    exact hread
  | some t =>
    rw [hget] at hread
    exact hread

omit [Trimmable α] in
/-- A field without a slot is read as its default. -/
theorem Yields.withDefault_of_not_mem (h : Yields slots ms) {n : String}
    (hn : n ∉ slots.map Slot.name) (default : α) :
    Storable.withDefault d (fieldsOf ms) n default = some default := by
  have hmem : n ∉ ms.map Prod.fst := by
    intro hmem
    obtain ⟨m, hm, rfl⟩ := List.mem_map.1 hmem
    exact hn (h.names m hm)
  simp only [Storable.withDefault, fieldsOf]
  rw [member?_of_not_mem hmem]

theorem Yields.required (h : Yields slots ms) {n : String} {a : α} (hs : ⟨n, a, none⟩ ∈ slots) :
    Storable.required d (fieldsOf ms) n = some a := by
  have hread := h.read _ hs d
  simp only [Storable.required, fieldsOf]
  cases hget : Tree.member? n ms with
  | none =>
    rw [hget] at hread
    exact hread
  | some t =>
    rw [hget] at hread
    exact hread

/-- A record restores its value if its written slots are sound and the value can be read from
whatever is left of them. -/
theorem restores_record (all slots : List Slot) (hslots : slots.Sublist all)
    (htrims : Trims α = trimsRecord (all.map Slot.field))
    (htree : toTree a = .record (slots.map Slot.member))
    (hnames : (all.map Slot.name).Nodup) (hsound : ∀ s ∈ slots, s.Sound)
    (hread : ∀ ms, Yields slots ms → ∀ d, ofTree? d (.record ms) = some a) : Restores a where
  whole := by
    rw [htrims, htree]
    refine Thins.refl fun m hm => ?_
    obtain ⟨s, hs, rfl⟩ := List.mem_map.1 hm
    exact ⟨s.field, List.mem_map_of_mem (hslots.subset hs), rfl, (hsound s hs).1.whole⟩
  read := by
    intro t ht
    rw [htrims, htree] at ht
    cases t with
    | record ms =>
      have hleaves := Thins.leaves hnames hslots hsound ht
      have hyields := hleaves.yields ((hslots.map Slot.name).nodup hnames)
      exact ⟨.record hleaves.plain, hread ms hyields⟩
    | _ => exact ht.elim

end PadRouter

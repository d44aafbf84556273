/-!
# Finite maps with ascending keys

Slots, key bindings, device records, listeners and attached devices are all finite maps that are
listed in the order of their keys.

* `Table κ ν` — an association list whose keys strictly ascend, so a map has one form only.
* `Table.get?_insert`, `Table.get?_erase`, `Table.get?_map`, `Table.get?_filter`,
  `Table.contains_insertAll` — what each operation does to look-up.
* `Table.get?_of_find?`, `Table.find?_eq_none_iff`, `Table.mem_keys_iff` — what a search and the
  list of keys say about look-up; `Table.fst_find?_map` — a search among images.
* `Table.ext_get?` — two tables with the same look-ups are equal.
-/

namespace PadRouter

/-- A finite map, as the list of its entries in strictly ascending order of their keys. -/
structure Table (κ ν : Type) [Ord κ] where
  entries : List (κ × ν)
  ascending : entries.Pairwise fun a b => compare a.1 b.1 = .lt

namespace Table

variable {κ ν μ : Type} [Ord κ]

/-! ### Entry lists -/

/-- The value at `k` in a list of entries. -/
def lookup (k : κ) : List (κ × ν) → Option ν
  | [] => none
  | e :: rest => if compare k e.1 = .eq then some e.2 else lookup k rest

/-- Puts `v` at `k`: before the first larger key, or in place of an entry with this key. -/
def place (k : κ) (v : ν) : List (κ × ν) → List (κ × ν)
  | [] => [(k, v)]
  | e :: rest =>
    match compare k e.1 with
    | .lt => (k, v) :: e :: rest
    | .eq => (k, v) :: rest
    | .gt => e :: place k v rest

theorem mem_place {k : κ} {v : ν} {e : κ × ν} {l : List (κ × ν)} (h : e ∈ place k v l) :
    e = (k, v) ∨ e ∈ l := by
  induction l with
  | nil => simpa [place] using h
  | cons a rest ih =>
    rw [place] at h
    split at h <;> grind

theorem pairwise_place [Std.TransOrd κ] [Std.LawfulEqOrd κ] {k : κ} {v : ν} {l : List (κ × ν)}
    (h : l.Pairwise fun a b => compare a.1 b.1 = .lt) :
    (place k v l).Pairwise fun a b => compare a.1 b.1 = .lt := by
  induction l with
  | nil => simp [place]
  | cons a rest ih =>
    obtain ⟨ha, hrest⟩ := List.pairwise_cons.mp h
    rw [place]
    split
    next hlt =>
      refine List.pairwise_cons.mpr ⟨fun e he => ?_, h⟩
      rcases List.mem_cons.mp he with rfl | he
      · exact hlt
      · exact Std.TransCmp.lt_trans hlt (ha e he)
    next heq =>
      have : k = a.1 := Std.LawfulEqCmp.eq_of_compare heq
      exact List.pairwise_cons.mpr ⟨fun e he => by simpa [this] using ha e he, hrest⟩
    next hgt =>
      refine List.pairwise_cons.mpr ⟨fun e he => ?_, ih hrest⟩
      rcases mem_place he with rfl | he
      · exact Std.OrientedCmp.gt_iff_lt.mp hgt
      · exact ha e he

theorem length_place_le (k : κ) (v : ν) (l : List (κ × ν)) :
    (place k v l).length ≤ l.length + 1 := by
  induction l with
  | nil => simp [place]
  | cons a rest ih =>
    rw [place]
    split <;> simp only [List.length_cons] <;> omega

/-! ### Operations -/

/-- The map without entries. -/
def empty : Table κ ν := ⟨[], .nil⟩

instance : EmptyCollection (Table κ ν) := ⟨empty⟩

instance : Inhabited (Table κ ν) := ⟨empty⟩

/-- The value at `k`, if there is one. -/
def get? (t : Table κ ν) (k : κ) : Option ν := lookup k t.entries

/-- Whether there is a value at `k`. -/
def contains (t : Table κ ν) (k : κ) : Bool := (t.get? k).isSome

/-- Puts `v` at `k`, replacing what was there. -/
def insert [Std.TransOrd κ] [Std.LawfulEqOrd κ] (t : Table κ ν) (k : κ) (v : ν) : Table κ ν :=
  ⟨place k v t.entries, pairwise_place t.ascending⟩

/-- Keeps the entries that satisfy `p`. -/
def filter (t : Table κ ν) (p : κ → ν → Bool) : Table κ ν :=
  ⟨t.entries.filter fun e => p e.1 e.2, t.ascending.filter _⟩

/-- Drops the entry at `k`. -/
def erase (t : Table κ ν) (k : κ) : Table κ ν :=
  t.filter fun k' _ => compare k k' != .eq

/-- Replaces each value by its image. -/
def map (t : Table κ ν) (f : κ → ν → μ) : Table κ μ :=
  ⟨t.entries.map fun e => (e.1, f e.1 e.2), List.pairwise_map.mpr t.ascending⟩

/-- Replaces the value at `k` by its image; the other entries stay. -/
def modify (t : Table κ ν) (k : κ) (f : ν → ν) : Table κ ν :=
  t.map fun k' v => if compare k k' = .eq then f v else v

/-- Number of entries. -/
def size (t : Table κ ν) : Nat := t.entries.length

theorem size_insert_le [Std.TransOrd κ] [Std.LawfulEqOrd κ] (t : Table κ ν) (k : κ) (v : ν) :
    (t.insert k v).size ≤ t.size + 1 :=
  length_place_le k v t.entries

/-- Whether there is no entry. -/
def isEmpty (t : Table κ ν) : Bool := t.entries.isEmpty

/-- The keys, in ascending order. -/
def keys (t : Table κ ν) : List κ := t.entries.map (·.1)

/-- The values, in the order of their keys. -/
def values (t : Table κ ν) : List ν := t.entries.map (·.2)

/-- The first entry, in the order of the keys, that satisfies `p`. -/
def find? (t : Table κ ν) (p : κ → ν → Bool) : Option (κ × ν) :=
  t.entries.find? fun e => p e.1 e.2

/-- Puts the entries of a list into `t`, one after the other; later ones win. -/
def insertAll [Std.TransOrd κ] [Std.LawfulEqOrd κ] (t : Table κ ν) (l : List (κ × ν)) :
    Table κ ν :=
  l.foldl (fun t e => t.insert e.1 e.2) t

/-! ### Look-up -/

section Lookup

variable [Std.LawfulEqOrd κ]

theorem lookup_place (k k' : κ) (v : ν) (l : List (κ × ν)) :
    lookup k' (place k v l) = if compare k' k = .eq then some v else lookup k' l := by
  induction l with
  | nil => simp [place, lookup]
  | cons e rest ih =>
    rw [place]
    split
    · rfl
    next heq =>
      have hk : k = e.1 := Std.LawfulEqCmp.eq_of_compare heq
      simp only [lookup, ← hk]
      split <;> rfl
    next hgt =>
      simp only [lookup, ih]
      by_cases h₁ : compare k' e.1 = .eq
      · have hk : k' = e.1 := Std.LawfulEqCmp.eq_of_compare h₁
        subst hk
        have hne : compare e.1 k ≠ .eq := by
          intro h
          have := Std.LawfulEqCmp.eq_of_compare h
          simp [this] at hgt
        simp [hne]
      · simp [h₁]

omit [Std.LawfulEqOrd κ] in
@[simp]
theorem get?_empty (k : κ) : ({} : Table κ ν).get? k = none := rfl

theorem get?_insert [Std.TransOrd κ] (t : Table κ ν) (k k' : κ) (v : ν) :
    (t.insert k v).get? k' = if compare k' k = .eq then some v else t.get? k' :=
  lookup_place k k' v t.entries

@[simp]
theorem get?_insert_self [Std.TransOrd κ] (t : Table κ ν) (k : κ) (v : ν) :
    (t.insert k v).get? k = some v := by
  simp [get?_insert]

theorem contains_insertAll [Std.TransOrd κ] {t : Table κ ν} {l : List (κ × ν)} {k : κ} :
    (t.insertAll l).contains k = true ↔ t.contains k = true ∨ k ∈ l.map (·.1) := by
  induction l generalizing t with
  | nil => simp [insertAll]
  | cons e rest ih =>
    have hstep : t.insertAll (e :: rest) = (t.insert e.1 e.2).insertAll rest := rfl
    rw [hstep, ih, contains, get?_insert, List.map_cons, List.mem_cons]
    by_cases hk : k = e.1
    · simp [hk]
    · have hcompare : compare k e.1 ≠ .eq := fun h => hk (Std.LawfulEqCmp.eq_of_compare h)
      simp [hk, hcompare, contains]

theorem get?_map (t : Table κ ν) (f : κ → ν → μ) (k : κ) :
    (t.map f).get? k = (t.get? k).map (f k) := by
  obtain ⟨l, hl⟩ := t
  simp only [get?, map]
  clear hl
  induction l with
  | nil => rfl
  | cons e rest ih =>
    simp only [List.map_cons, lookup]
    by_cases h : compare k e.1 = .eq
    · simp [(Std.LawfulEqCmp.eq_of_compare h).symm]
    · simp [h, ih]

theorem lookup_eq_some_iff_mem {k : κ} {v : ν} {l : List (κ × ν)}
    (h : l.Pairwise fun a b => compare a.1 b.1 = .lt) :
    lookup k l = some v ↔ (k, v) ∈ l := by
  induction l with
  | nil => simp [lookup]
  | cons e rest ih =>
    obtain ⟨he, hrest⟩ := List.pairwise_cons.mp h
    simp only [lookup, List.mem_cons]
    by_cases hk : compare k e.1 = .eq
    · have hk' : k = e.1 := Std.LawfulEqCmp.eq_of_compare hk
      subst hk'
      have hno : (e.1, v) ∉ rest := fun hm => by simpa using he _ hm
      simp [Prod.ext_iff, hno, eq_comm]
    · have hne : (k, v) ≠ e := by
        rintro rfl
        simp at hk
      simp [hk, hne, ih hrest]

theorem get?_eq_some_iff_mem {t : Table κ ν} {k : κ} {v : ν} :
    t.get? k = some v ↔ (k, v) ∈ t.entries :=
  lookup_eq_some_iff_mem t.ascending

theorem get?_filter (t : Table κ ν) (p : κ → ν → Bool) (k : κ) :
    (t.filter p).get? k = (t.get? k).filter (p k) := by
  cases h : (t.get? k).filter (p k) with
  | none =>
    rw [Option.eq_none_iff_forall_ne_some]
    intro v hv
    obtain ⟨hm, hp⟩ := List.mem_filter.mp (get?_eq_some_iff_mem.mp hv)
    rw [← get?_eq_some_iff_mem] at hm
    simp [hm, hp] at h
  | some v =>
    obtain ⟨hv, hp⟩ := Option.filter_eq_some_iff.mp h
    exact get?_eq_some_iff_mem.mpr (List.mem_filter.mpr ⟨get?_eq_some_iff_mem.mp hv, hp⟩)

/-- A filter that looks at the keys only. -/
theorem get?_filter_key (t : Table κ ν) (p : κ → Bool) (k : κ) :
    (t.filter fun k _ => p k).get? k = if p k then t.get? k else none := by
  rw [get?_filter]
  cases t.get? k <;> simp [Option.filter]

theorem get?_erase (t : Table κ ν) (k k' : κ) :
    (t.erase k).get? k' = if compare k k' = .eq then none else t.get? k' := by
  rw [erase, get?_filter_key]
  by_cases h : compare k k' = .eq <;> simp [h]

theorem get?_modify (t : Table κ ν) (k k' : κ) (f : ν → ν) :
    (t.modify k f).get? k' = (t.get? k').map fun v => if compare k k' = .eq then f v else v :=
  get?_map t _ k'

theorem get?_of_find? {t : Table κ ν} {p : κ → ν → Bool} {e : κ × ν} (h : t.find? p = some e) :
    t.get? e.1 = some e.2 ∧ p e.1 e.2 = true := by
  rw [find?] at h
  have hp := List.find?_some h
  exact ⟨get?_eq_some_iff_mem.mpr (List.mem_of_find?_eq_some h), hp⟩

theorem find?_eq_none_iff {t : Table κ ν} {p : κ → ν → Bool} :
    t.find? p = none ↔ ∀ k v, t.get? k = some v → p k v = false := by
  rw [find?, List.find?_eq_none]
  constructor
  · intro h k v hv
    simpa using h (k, v) (get?_eq_some_iff_mem.mp hv)
  · intro h e he
    simp [h e.1 e.2 (get?_eq_some_iff_mem.mpr he)]

omit [Std.LawfulEqOrd κ] in
/-- A search among images finds the key that the search for their values finds. -/
theorem fst_find?_map (t : Table κ ν) (f : κ → ν → μ) (p : κ → μ → Bool) :
    ((t.map f).find? p).map (·.1) = (t.find? fun k v => p k (f k v)).map (·.1) := by
  simp only [find?, map, List.find?_map, Option.map_map]
  rfl

theorem mem_keys_iff {t : Table κ ν} {k : κ} : k ∈ t.keys ↔ ∃ v, t.get? k = some v := by
  simp only [keys, List.mem_map, get?_eq_some_iff_mem]
  constructor
  · rintro ⟨e, he, rfl⟩
    exact ⟨e.2, he⟩
  · rintro ⟨v, hv⟩
    exact ⟨(k, v), hv, rfl⟩

theorem mem_keys_iff_contains {t : Table κ ν} {k : κ} : k ∈ t.keys ↔ t.contains k = true := by
  rw [mem_keys_iff, contains, Option.isSome_iff_exists]

theorem get?_eq_none_iff {t : Table κ ν} {k : κ} : t.get? k = none ↔ k ∉ t.keys := by
  rw [mem_keys_iff, Option.eq_none_iff_forall_ne_some, not_exists]

omit [Std.LawfulEqOrd κ] in
theorem pairwise_keys (t : Table κ ν) : t.keys.Pairwise fun a b => compare a b = .lt :=
  List.pairwise_map.mpr t.ascending

theorem nodup_keys (t : Table κ ν) : t.keys.Nodup :=
  t.pairwise_keys.imp fun hlt heq => by simp [heq] at hlt

/-- A table is given by its look-ups. -/
theorem ext_get? [Std.TransOrd κ] {s t : Table κ ν} (h : ∀ k, s.get? k = t.get? k) : s = t := by
  have hperm : s.entries.Perm t.entries := by
    refine (List.perm_ext_iff_of_nodup ?_ ?_).mpr fun e => ?_
    · exact s.ascending.imp fun hlt heq => by simp [heq] at hlt
    · exact t.ascending.imp fun hlt heq => by simp [heq] at hlt
    · rw [← Prod.eta e, ← get?_eq_some_iff_mem, ← get?_eq_some_iff_mem, h]
  have heq : s.entries = t.entries := hperm.eq_of_pairwise
    (fun a b _ _ hab hba => by
      have := Std.OrientedCmp.gt_iff_lt.mpr hba
      simp [hab] at this) s.ascending t.ascending
  cases s
  cases t
  simp_all

end Lookup

end Table

end PadRouter

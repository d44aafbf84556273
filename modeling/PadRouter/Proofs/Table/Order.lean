import Mathlib.Data.List.Nodup
import PadRouter.Table

/-!
# Entries in any order

What is told of a table does not depend on the order in which its entries are visited.

* `Table.mergeSort_of_keys` — sorting by the keys gives the ascending list, whatever the order was.
* `Table.find?_eq_some_iff_of_unique` — a search finds the only item that it can find.
* `Table.filter_key` — a key has at most one entry.
-/

namespace PadRouter.Table

variable {κ ν α : Type} [Ord κ] {l l' : List α} {a : α}

theorem eq_of_key_eq [Std.ReflOrd κ] {key : α → κ}
    (h : (l.map key).Pairwise fun k k' => compare k k' = .lt) {b : α} (ha : a ∈ l) (hb : b ∈ l)
    (hkey : key a = key b) : a = b := by
  have hnodup : (l.map key).Nodup := h.imp fun hlt heq => by simp [heq] at hlt
  exact List.inj_on_of_nodup_map hnodup ha hb hkey

/-- Sorting by the keys gives the list in which the keys ascend, whatever the order was. -/
theorem mergeSort_of_keys [Std.TransOrd κ] [Std.LawfulEqOrd κ] {key : α → κ}
    (hl : l.Perm l') (h : (l'.map key).Pairwise fun k k' => compare k k' = .lt) :
    l.mergeSort (fun a b => (compare (key a) (key b)).isLE) = l' := by
  have htotal (a b : α) :
      ((compare (key a) (key b)).isLE || (compare (key b) (key a)).isLE) = true := by
    have hswap : compare (key b) (key a) = (compare (key a) (key b)).swap :=
      Std.OrientedCmp.eq_swap
    rw [hswap]
    cases compare (key a) (key b) <;> rfl
  have hsorted : (l.mergeSort fun a b => (compare (key a) (key b)).isLE).Pairwise fun a b =>
      (compare (key a) (key b)).isLE = true :=
    List.pairwise_mergeSort (fun a b c => Std.TransCmp.isLE_trans) htotal l
  have hperm := (List.mergeSort_perm l fun a b => (compare (key a) (key b)).isLE).trans hl
  refine hperm.eq_of_pairwise ?_ hsorted ?_
  · intro a b ha hb hle hge
    have hcompare := Std.OrientedCmp.isLE_antisymm hle hge
    exact eq_of_key_eq h (hperm.subset ha) hb (Std.LawfulEqCmp.eq_of_compare hcompare)
  · refine (List.pairwise_map.1 h).imp fun hlt => ?_
    rw [hlt]
    rfl

/-- A search finds an item if it can find no other. -/
theorem find?_eq_some_iff_of_unique {p : α → Bool}
    (h : ∀ a ∈ l, ∀ b ∈ l, p a = true → p b = true → a = b) :
    l.find? p = some a ↔ a ∈ l ∧ p a = true := by
  constructor
  · intro hfind
    exact ⟨List.mem_of_find?_eq_some hfind, List.find?_some hfind⟩
  · rintro ⟨ha, hpa⟩
    obtain ⟨b, hfind⟩ : ∃ b, l.find? p = some b := by
      rw [← Option.isSome_iff_exists, List.find?_isSome]
      exact ⟨a, ha, hpa⟩
    rw [hfind, h b (List.mem_of_find?_eq_some hfind) a ha (List.find?_some hfind) hpa]

/-- A key has at most one entry. -/
theorem filter_key [Std.LawfulEqOrd κ] [DecidableEq κ] (t : Table κ ν) (k : κ) :
    t.entries.filter (fun e => e.1 == k) = (t.get? k).toList.map fun v => (k, v) := by
  obtain ⟨l, hl⟩ := t
  simp only [get?]
  induction l with
  | nil => rfl
  | cons e l ih =>
    obtain ⟨he, hl⟩ := List.pairwise_cons.1 hl
    by_cases hkey : e.1 = k
    · subst hkey
      have hrest : l.filter (fun e' => e'.1 == e.1) = [] := by
        rw [List.filter_eq_nil_iff]
        intro e' he' heq
        have hlt := he e' he'
        rw [eq_of_beq heq] at hlt
        simp at hlt
      rw [List.filter_cons_of_pos (by simp), hrest, lookup, if_pos (by simp)]
      rfl
    · have hcompare : compare k e.1 ≠ .eq := fun heq =>
        hkey (Std.LawfulEqCmp.eq_of_compare heq).symm
      rw [List.filter_cons_of_neg (by simpa using hkey), lookup, if_neg hcompare, ih hl]

end PadRouter.Table

import Mathlib.Data.List.Induction
import Mathlib.Data.String.Basic
import Mathlib.Tactic.SplitIfs
import PadRouter.Proofs.Json.RoundTrip
import PadRouter.Proofs.Table.Order
import PadRouter.Register.Storage

/-!
# The register is a finite map

* `Register.Edit`, `Register.edited` — the changes of a register, and the register that some changes
  of an empty one lead to.
* `Register.Model`, `Register.Edit.act` — maps from identifiers to records, and what a change does
  to one.
* `Register.get?_edited` — look-up in a register is look-up in its map.
* `Register.IsFiniteMap` — what is told of a register comes from the list of its records, which
  ascends and has each model once.
* `Register.mergeJson_toJson` — the text of a register puts its records over those of another.
* `Register.edited_is_finite_map` — all of this for every run of changes.
-/

namespace PadRouter.Register

/-- A change of a register. -/
inductive Edit
  | reset
  | insert (record : Record)
  | setScheme (id : ModelId) (s : Scheme)
  | setRawScheme (id : ModelId) (left right hat : Nat)
  | remove (id : ModelId)
  | mergeJson (text : String)
  | load (folder : Folder) (path : String)

/-- The register after a change. One that fails leaves the register as it is. -/
def apply (r : Register) : Edit → Register
  | .reset => r.reset
  | .insert record => r.insert record
  | .setScheme id s => r.setScheme id.vendor id.product s
  | .setRawScheme id left right hat =>
    (r.setRawScheme id.vendor id.product left right hat).toOption.getD r
  | .remove id => r.remove id.vendor id.product
  | .mergeJson text => ((r.mergeJson text).map Prod.fst).toOption.getD r
  | .load folder path => ((r.load folder path).map Prod.fst).toOption.getD r

/-- The register that some changes of the empty one lead to. -/
def edited (edits : List Edit) : Register := edits.foldl apply empty

/-! ### Maps -/

/-- A map from the identifiers of models to records. -/
abbrev Model := ModelId → Option Record

namespace Model

/-- A map with one record replaced. -/
def put (f : Model) (id : ModelId) (record : Record) : Model := fun id' =>
  if id' = id then some record else f id'

/-- The records of a list over those of a map. Of several records of one model the last one wins. -/
def overlaid (f : Model) (l : List Record) : Model := fun id =>
  (l.reverse.find? fun record => record.id = id).or (f id)

/-- A model with another scheme. One without a record gets a nameless one that is not supported. -/
def withScheme (f : Model) (id : ModelId) (s : Scheme) : Model :=
  f.put id <|
    match f id with
    | some record => { record with scheme := s }
    | none => ⟨id.vendor, id.product, none, none, s, false⟩

end Model

/-- The records that a change reads off a text, if it reads one and the text is well formed. -/
def Edit.incoming? : Edit → Option (List Record)
  | mergeJson text => recordsOfJson? text
  | load folder path =>
    match folder.readText path with
    | .ok text => recordsOfJson? text
    | .error _ => none
  | _ => none

/-- What a change does to a map. -/
def Edit.act (f : Model) : Edit → Model
  | reset => Model.overlaid (fun _ => none) supportedModels
  | insert record => f.put record.id record
  | setScheme id s => f.withScheme id s
  | setRawScheme id left right hat =>
    match Scheme.ofRaw? left right hat with
    | .ok s => f.withScheme id s
    | .error _ => f
  | remove id => fun id' => if id' = id then none else f id'
  | mergeJson text => f.overlaid ((mergeJson text).incoming?.getD [])
  | load folder path => f.overlaid ((load folder path).incoming?.getD [])

/-- Whether a change names a model. A reset names all. -/
def Edit.names (id : ModelId) : Edit → Prop
  | reset => True
  | insert record => record.id = id
  | setScheme id' _ | setRawScheme id' _ _ _ | remove id' => id' = id
  | mergeJson text => ∃ record ∈ (mergeJson text).incoming?.getD [], record.id = id
  | load folder path => ∃ record ∈ (load folder path).incoming?.getD [], record.id = id

variable {r d e : Register} {f : Model} {id : ModelId} {record : Record} {l : List Record}
  {t : Table ModelId Record}

theorem put_of_ne {id' : ModelId} (h : id' ≠ id) : f.put id record id' = f id' := if_neg h

theorem overlaid_nil (f : Model) : f.overlaid [] = f := rfl

theorem overlaid_concat (f : Model) (l : List Record) (record : Record) :
    f.overlaid (l ++ [record]) = (f.overlaid l).put record.id record := by
  funext id
  by_cases hid : record.id = id
  · simp [Model.overlaid, Model.put, hid]
  · simp [Model.overlaid, Model.put, hid, Ne.symm hid]

theorem overlaid_of_not_mem (f : Model) (h : ¬ ∃ record ∈ l, record.id = id) :
    f.overlaid l id = f id := by
  have hnone : l.reverse.find? (fun record => record.id = id) = none := by
    rw [List.find?_eq_none]
    intro record hmem heq
    exact h ⟨record, List.mem_reverse.1 hmem, by simpa using heq⟩
  rw [Model.overlaid, hnone, Option.none_or]

/-- A change leaves the models alone that it does not name. -/
theorem act_of_not_names {edit : Edit} (h : ¬ edit.names id) : edit.act f id = f id := by
  cases edit with
  | reset => exact absurd trivial h
  | insert record => exact put_of_ne (Ne.symm h)
  | setScheme id' s => exact put_of_ne (Ne.symm h)
  | setRawScheme id' left right hat =>
    simp only [Edit.act]
    cases Scheme.ofRaw? left right hat with
    | ok s => exact put_of_ne (Ne.symm h)
    | error fault => rfl
  | remove id' => exact if_neg (Ne.symm h)
  | mergeJson text => exact overlaid_of_not_mem f h
  | load folder path => exact overlaid_of_not_mem f h

/-! ### Look-up after a change -/

theorem compare_eq_iff {id id' : ModelId} : compare id id' = .eq ↔ id = id' :=
  Std.LawfulEqCmp.compare_eq_iff_eq

theorem get?_tableInsert (t : Table ModelId Record) (id : ModelId) (record : Record) :
    (t.insert id record).get? = Model.put t.get? id record := by
  funext id'
  simp only [Table.get?_insert, compare_eq_iff, Model.put]

/-- The records of a list are put in one after the other, so the last one wins. -/
theorem get?_putAll (t : Table ModelId Record) (l : List Record) :
    (put t l).get? = Model.overlaid t.get? l := by
  induction l using List.reverseRecOn with
  | nil => rfl
  | append_singleton l record ih =>
    have hstep : put t (l ++ [record]) = (put t l).insert record.id record := by
      rw [put, List.foldl_append]
      rfl
    rw [hstep, get?_tableInsert, ih, overlaid_concat]

theorem get?_setScheme (r : Register) (id : ModelId) (s : Scheme) :
    (r.setScheme id.vendor id.product s).table.get? = Model.withScheme r.table.get? id s := by
  change (r.table.insert id _).get? = _
  rw [get?_tableInsert]
  rfl

theorem get?_remove (r : Register) (id id' : ModelId) :
    (r.remove id.vendor id.product).table.get? id' =
      if id' = id then none else r.table.get? id' := by
  rw [remove]
  split
  next =>
    change (r.table.erase id).get? id' = _
    simp only [Table.get?_erase, compare_eq_iff, eq_comm (a := id)]
  next hcontains =>
    have hnone : r.table.get? id = none := by simpa [Table.contains] using hcontains
    split
    next heq => rw [heq, hnone]
    next => rfl

/-- Reading records from a text or a file is putting them in. -/
theorem get?_apply_of_incoming {edit : Edit}
    (h : (∃ text, edit = .mergeJson text) ∨ ∃ folder path, edit = .load folder path) :
    (r.apply edit).table.get? = Model.overlaid r.table.get? (edit.incoming?.getD []) := by
  have hmerge (text : String) :
      (((r.mergeJson text).map Prod.fst).toOption.getD r).table.get? =
        Model.overlaid r.table.get? ((recordsOfJson? text).getD []) := by
    cases hrecords : recordsOfJson? text with
    | none => simp [mergeJson, hrecords, Except.map, Except.toOption, overlaid_nil]
    | some l =>
      simp only [mergeJson, hrecords]
      exact get?_putAll r.table l
  obtain ⟨text, rfl⟩ | ⟨folder, path, rfl⟩ := h
  · exact hmerge text
  · simp only [apply, load, Edit.incoming?]
    cases folder.readText path with
    | ok text => exact hmerge text
    | error cause => rfl

theorem get?_apply (r : Register) (edit : Edit) :
    (r.apply edit).table.get? = edit.act r.table.get? := by
  cases edit with
  | reset => exact get?_putAll {} supportedModels
  | insert record => exact get?_tableInsert r.table record.id record
  | setScheme id s => exact get?_setScheme r id s
  | setRawScheme id left right hat =>
    simp only [apply, setRawScheme, Edit.act]
    cases Scheme.ofRaw? left right hat with
    | ok s => exact get?_setScheme r id s
    | error fault => rfl
  | remove id => exact funext (get?_remove r id)
  | mergeJson text => exact get?_apply_of_incoming (.inl ⟨text, rfl⟩)
  | load folder path => exact get?_apply_of_incoming (.inr ⟨folder, path, rfl⟩)

/-- Look-up in a register is look-up in the map that its changes lead to. -/
theorem get?_edited (edits : List Edit) :
    (edited edits).table.get? = edits.foldl Edit.act fun _ => none := by
  induction edits using List.reverseRecOn with
  | nil => rfl
  | append_singleton edits edit ih =>
    simp only [edited, List.foldl_append, List.foldl_cons, List.foldl_nil] at ih ⊢
    rw [get?_apply, ih]

/-! ### Records under their own identifiers -/

/-- Each record of a map stands under its own identifiers. -/
def Model.KeepsIds (f : Model) : Prop := ∀ id record, f id = some record → record.id = id

theorem Model.KeepsIds.put (h : f.KeepsIds) (hid : record.id = id) :
    (f.put id record).KeepsIds := by
  intro id' record' hget
  rw [Model.put] at hget
  split_ifs at hget with heq
  · rw [← Option.some.inj hget, hid, heq]
  · exact h id' record' hget

theorem Model.KeepsIds.overlaid (h : f.KeepsIds) (l : List Record) : (f.overlaid l).KeepsIds := by
  induction l using List.reverseRecOn with
  | nil => exact h
  | append_singleton l record ih =>
    rw [overlaid_concat]
    exact ih.put rfl

theorem Model.KeepsIds.withScheme (h : f.KeepsIds) (id : ModelId) (s : Scheme) :
    (f.withScheme id s).KeepsIds := by
  refine h.put ?_
  cases hget : f id with
  | none => rfl
  | some record => exact h id record hget

theorem Model.KeepsIds.act (h : f.KeepsIds) (edit : Edit) : (edit.act f).KeepsIds := by
  cases edit with
  | reset => exact Model.KeepsIds.overlaid (fun _ _ hnone => by simp at hnone) _
  | insert record => exact h.put rfl
  | setScheme id s => exact h.withScheme id s
  | setRawScheme id left right hat =>
    simp only [Edit.act]
    cases Scheme.ofRaw? left right hat with
    | ok s => exact h.withScheme id s
    | error fault => exact h
  | remove id =>
    intro id' record hget
    simp only [Edit.act] at hget
    split_ifs at hget
    exact h id' record hget
  | mergeJson text => exact h.overlaid _
  | load folder path => exact h.overlaid _

theorem keepsIds_edited (edits : List Edit) : Model.KeepsIds (edited edits).table.get? := by
  rw [get?_edited]
  exact List.foldlRecOn edits _ (fun _ _ hnone => by simp at hnone) fun _ hf edit _ => hf.act edit

/-! ### The list of records -/

/-- The order of the list of records: by vendor, then by product. -/
def Precedes (a b : Record) : Prop :=
  a.vendorId < b.vendorId ∨ a.vendorId = b.vendorId ∧ a.productId < b.productId

theorem precedes_iff {a b : Record} : Precedes a b ↔ compare a.id b.id = .lt := by
  rw [ModelId.compare_eq, Ordering.then_eq_lt, Std.LawfulLTCmp.eq_lt_iff_lt,
    Std.LawfulLTCmp.eq_lt_iff_lt, Std.LawfulEqCmp.compare_eq_iff_eq]
  rfl

theorem mem_records (h : Model.KeepsIds r.table.get?) :
    record ∈ r.records ↔ r.table.get? record.id = some record := by
  simp only [records, Table.values, List.mem_map]
  constructor
  · rintro ⟨⟨id, record⟩, hmem, rfl⟩
    have hget := Table.get?_eq_some_iff_mem.2 hmem
    rwa [h id record hget]
  · intro hget
    exact ⟨(record.id, record), Table.get?_eq_some_iff_mem.1 hget, rfl⟩

theorem map_id_records (h : Model.KeepsIds r.table.get?) :
    r.records.map Record.id = r.table.keys := by
  rw [records, Table.values, Table.keys, List.map_map]
  refine List.map_congr_left fun e he => ?_
  exact h e.1 e.2 (Table.get?_eq_some_iff_mem.2 he)

theorem compare_records (h : Model.KeepsIds r.table.get?) :
    (r.records.map Record.id).Pairwise fun id id' => compare id id' = .lt := by
  rw [map_id_records h]
  exact r.table.pairwise_keys

theorem pairwise_records (h : Model.KeepsIds r.table.get?) : r.records.Pairwise Precedes :=
  (List.pairwise_map.1 (compare_records h)).imp precedes_iff.2

/-- A record is found in the list by its identifiers, in whatever order the list is. -/
theorem find?_records (h : Model.KeepsIds r.table.get?) (hl : l.Perm r.records) (id : ModelId) :
    l.find? (fun record => record.vendorId = id.vendor ∧ record.productId = id.product) =
      r.table.get? id := by
  have hid (record : Record) :
      decide (record.vendorId = id.vendor ∧ record.productId = id.product) = true ↔
        record.id = id := by
    cases id
    simp [Record.id]
  refine Option.ext fun record => ?_
  rw [Table.find?_eq_some_iff_of_unique, hid, hl.mem_iff, mem_records h]
  · constructor
    · rintro ⟨hget, rfl⟩
      exact hget
    · intro hget
      obtain rfl := h id record hget
      exact ⟨hget, rfl⟩
  · intro a ha b hb hida hidb
    have heq : a.id = b.id := ((hid a).1 hida).trans ((hid b).1 hidb).symm
    exact Table.eq_of_key_eq (compare_records h) (hl.subset ha) (hl.subset hb) heq

/-- Sorting by the identifiers gives the list of records, whatever the order was. -/
theorem mergeSort_records (h : Model.KeepsIds r.table.get?) (hl : l.Perm r.records) :
    l.mergeSort (fun a b => (compare a.id b.id).isLE) = r.records :=
  Table.mergeSort_of_keys hl (compare_records h)

/-- What is told of a register comes from the list of its records, which ascends by vendor and
product, so that it has each model once. -/
structure IsFiniteMap (r : Register) : Prop where
  ownIds : ∀ id record, r.table.get? id = some record → record.id = id
  ascending : r.records.Pairwise Precedes
  nodup : (r.records.map Record.id).Nodup
  size : r.size = r.records.length
  get : ∀ vendor product, r.get? vendor product =
    r.records.find? fun record => record.vendorId = vendor ∧ record.productId = product
  present : ∀ vendor product record, r.get? vendor product = some record →
    r.resolve vendor product = ⟨record.scheme, record.name, record.icon, record.known⟩ ∧
      r.scheme vendor product = record.scheme ∧ r.name? vendor product = record.name ∧
      r.icon? vendor product = record.icon ∧ r.isKnown vendor product = record.known
  absent : ∀ vendor product, r.get? vendor product = none →
    r.resolve vendor product = ⟨⟨.a0a1, .a2a5, .h0h7⟩, none, none, false⟩ ∧
      r.scheme vendor product = ⟨.a0a1, .a2a5, .h0h7⟩ ∧ r.name? vendor product = none ∧
      r.icon? vendor product = none ∧ r.isKnown vendor product = false
  anyOrder : ∀ l : List Record, l.Perm r.records →
    l.mergeSort (fun a b => (compare a.id b.id).isLE) = r.records

theorem isFiniteMap_of_keepsIds (h : Model.KeepsIds r.table.get?) : r.IsFiniteMap where
  ownIds := h
  ascending := pairwise_records h
  nodup := by
    rw [map_id_records h]
    exact r.table.nodup_keys
  size := by rw [size, Table.size, records, Table.values, List.length_map]
  get vendor product := (find?_records h (List.Perm.refl _) ⟨vendor, product⟩).symm
  present vendor product record hget := by
    simp [resolve, scheme, name?, icon?, isKnown, hget]
  absent vendor product hget := by
    simp [resolve, scheme, name?, icon?, isKnown, hget]
  anyOrder _ hl := mergeSort_records h hl

/-! ### Texts of registers -/

theorem recordsOfJson?_toJson (r : Register) : recordsOfJson? r.toJson = some r.records := by
  have hrestores : Restores r.records := restores_list fun record _ => restores_deviceRecord record
  exact (Json.roundTrips_of_restores hrestores).indented

/-- Records that stand under their own identifiers go over a map as they are. -/
theorem overlaid_records (h : Model.KeepsIds d.table.get?) (f : Model) (id : ModelId) :
    f.overlaid d.records id = (d.table.get? id).or (f id) := by
  have hfind := find?_records h d.records.reverse_perm id
  rw [Model.overlaid, ← hfind]
  congr 2
  funext record
  cases id
  simp [Record.id]

/-- The text of a register puts its records over those of another. -/
theorem mergeJson_toJson (h : Model.KeepsIds d.table.get?) (e : Register) :
    ∃ merged, e.mergeJson d.toJson = .ok (merged, d.size) ∧
      ∀ id, merged.table.get? id = (d.table.get? id).or (e.table.get? id) := by
  refine ⟨e.merge d.records, ?_, fun id => ?_⟩
  · rw [mergeJson, recordsOfJson?_toJson]
    simp [size, Table.size, records, Table.values]
  · change (put e.table d.records).get? id = _
    rw [get?_putAll, overlaid_records h]

/-- **The register is a finite map** from vendor and product to records, whatever changes have been
made to it. Its look-ups are those of the map that the same changes lead to, and all else it tells
comes from the list of its records. A change leaves alone all models that it does not name; a new
scheme replaces only the scheme of a record. The text of a register, put into another one, gives its
records precedence and leaves the other models as they are; put into an empty one, it gives the same
register. -/
theorem edited_is_finite_map (edits : List Edit) :
    let r := edited edits
    r.IsFiniteMap ∧
    (∀ vendor product,
      r.get? vendor product = edits.foldl Edit.act (fun _ => none) ⟨vendor, product⟩) ∧
    (∀ edit vendor product, ¬ edit.names ⟨vendor, product⟩ →
      (r.apply edit).get? vendor product = r.get? vendor product) ∧
    (∀ vendor product s, (r.setScheme vendor product s).get? vendor product =
      some (match r.get? vendor product with
        | some record => { record with scheme := s }
        | none => ⟨vendor, product, none, none, s, false⟩)) ∧
    ∀ edits', let e := edited edits'
      ∃ merged, e.mergeJson r.toJson = .ok (merged, r.size) ∧
        (∀ vendor product, merged.get? vendor product =
          (r.get? vendor product).or (e.get? vendor product)) ∧
        (e.isEmpty = true → merged.records = r.records) := by
  intro r
  have hids : Model.KeepsIds r.table.get? := keepsIds_edited edits
  refine ⟨isFiniteMap_of_keepsIds hids, fun vendor product => ?_,
    fun edit vendor product hnames => ?_, fun vendor product s => ?_, fun edits' => ?_⟩
  · exact congrFun (get?_edited edits) ⟨vendor, product⟩
  · have hget := congrFun (get?_apply r edit) ⟨vendor, product⟩
    rw [act_of_not_names hnames] at hget
    exact hget
  · have hget := congrFun (get?_setScheme r ⟨vendor, product⟩ s) ⟨vendor, product⟩
    exact hget.trans (if_pos rfl)
  · intro e
    obtain ⟨merged, hmerge, hget⟩ := mergeJson_toJson hids e
    refine ⟨merged, hmerge, fun vendor product => hget ⟨vendor, product⟩, fun hempty => ?_⟩
    have hnone (id : ModelId) : e.table.get? id = none := by
      have hentries : e.table.entries = [] := List.isEmpty_iff.1 hempty
      rw [Table.get?, hentries]
      rfl
    have htable : merged.table = r.table := by
      refine Table.ext_get? fun id => ?_
      rw [hget, hnone, Option.or_none]
    rw [records, htable, records]

end PadRouter.Register

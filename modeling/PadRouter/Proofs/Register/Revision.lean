import PadRouter.Proofs.Register.FiniteMap

/-!
# Changes of the register and its revision

A change is many steps: records go into the table one after the other, and the revision is counted
up behind them. A change that is broken off leaves the register as its last step left it, so that
only the order of the steps can keep a half-done change out of it.

* `Register.Steps`, `Register.Edit.steps` — the changes step by step; `Register.perform` takes the
  steps of one and `Register.perform_eq` finds what the register says of it.
* `Register.Edit.Refused` — which changes are refused; `Register.failed_iff` says that these and no
  others fail, `Register.apply_cases` that failing means to change nothing.
* `Register.BadSelector` — a record with a number that selects nothing.
* `Register.after` — the register after some changes; `Register.revision_after` counts them.
* `Register.changes_are_whole` — a change is done as a whole and counted once, or not at all.
-/

namespace PadRouter.Register

/-! ### Changes step by step -/

/-- Why a change is broken off. -/
inductive Refusal
  | storage (e : RegisterError)
  | selector (e : SelectorError)
  deriving DecidableEq, Repr

/-- What a change answers. -/
inductive Answer
  | done
  /-- How many records were put in. -/
  | merged (count : Nat)
  /-- The record that was taken out. -/
  | removed (record : Option Record)
  deriving DecidableEq, Repr

/-- Steps on a register. Where they are broken off, what has been done stays. -/
abbrev Steps := EStateM Refusal Register

namespace Steps

/-- Puts a record in under some identifiers. -/
def place (id : ModelId) (record : Record) : Steps Unit :=
  modify fun r => { r with table := r.table.insert id record }

/-- Puts some records in, each under its own identifiers. -/
def placeAll (records : List Record) : Steps Unit :=
  records.forM fun record => place record.id record

/-- Counts the revision up. -/
def count : Steps Unit := modify fun r => { r with revision := r.revision + 1 }

/-- Gives a model a scheme, in its record or in a new one. -/
def giveScheme (id : ModelId) (s : Scheme) : Steps Answer := do
  match (← get).table.get? id with
  | some record => place id { record with scheme := s }
  | none => place id { vendorId := id.vendor, productId := id.product, scheme := s }
  count
  return .done

/-- Puts the records of a text in. The text is read to its end before the first one goes in. -/
def mergeText (text : String) : Steps Answer := do
  let some records := recordsOfJson? text | throw (.storage .malformed)
  placeAll records
  count
  return .merged records.length

end Steps

open Steps

/-- The steps of a change. -/
def Edit.steps : Edit → Steps Answer
  | reset => do
    modify fun r => { r with table := {} }
    placeAll supportedModels
    count
    return .done
  | insert record => do
    place record.id record
    count
    return .done
  | setScheme id s => giveScheme id s
  | setRawScheme id left right hat =>
    match Scheme.ofRaw? left right hat with
    | .ok s => giveScheme id s
    | .error e => throw (.selector e)
  | remove id => do
    let found := (← get).table.get? id
    modify fun r => { r with table := r.table.erase id }
    if found.isSome then count
    return .removed found
  | mergeJson text => mergeText text
  | load folder path =>
    match folder.readText path with
    | .ok text => mergeText text
    | .error cause => throw (.storage (.file path cause))

/-- Takes the steps of a change: what comes of it, and the register then. -/
def perform (r : Register) (edit : Edit) : Except Refusal Answer × Register :=
  match edit.steps.run r with
  | .ok answer r => (.ok answer, r)
  | .error e r => (.error e, r)

/-- What is said of records that were to be put in. -/
def answerOfMerge : Except RegisterError (Register × Nat) → Except Refusal Answer
  | .ok (_, count) => .ok (.merged count)
  | .error e => .error (.storage e)

/-- What the register says of a change. -/
def answer (r : Register) : Edit → Except Refusal Answer
  | .setRawScheme id left right hat =>
    match r.setRawScheme id.vendor id.product left right hat with
    | .ok _ => .ok .done
    | .error e => .error (.selector e)
  | .remove id => .ok (.removed (r.get? id.vendor id.product))
  | .mergeJson text => answerOfMerge (r.mergeJson text)
  | .load folder path => answerOfMerge (r.load folder path)
  | .reset | .insert _ | .setScheme _ _ => .ok .done

variable {r s : Register} {edit : Edit} {edits : List Edit} {id : ModelId} {text : String}

theorem run_bind {α β : Type} {x : Steps α} {f : α → Steps β} {a : α}
    (h : x.run r = .ok a s) : (x >>= f).run r = (f a).run s := by
  rw [EStateM.run] at h
  change EStateM.bind x f r = _
  rw [EStateM.bind, h]
  rfl

theorem run_placeAll (records : List Record) (r : Register) :
    (placeAll records).run r = .ok () { r with table := put r.table records } := by
  induction records generalizing r with
  | nil => rfl
  | cons record rest ih => exact ih { r with table := r.table.insert record.id record }

theorem run_giveScheme (r : Register) (id : ModelId) (s : Scheme) :
    (giveScheme id s).run r = .ok .done (r.setScheme id.vendor id.product s) := by
  have hget : (get : Steps Register).run r = .ok r r := rfl
  have hid : (⟨id.vendor, id.product⟩ : ModelId) = id := rfl
  rw [giveScheme, run_bind hget, setScheme, get?, hid]
  cases r.table.get? id <;> rfl

theorem run_mergeText (r : Register) (text : String) :
    (mergeText text).run r =
      match recordsOfJson? text with
      | some records => .ok (.merged records.length) (r.merge records)
      | none => .error (.storage .malformed) r := by
  rw [mergeText]
  cases recordsOfJson? text with
  | none => rfl
  | some records => exact run_bind (run_placeAll records r)

theorem run_reset (r : Register) : Edit.reset.steps.run r = .ok .done r.reset := by
  have hclear : (modify fun r => { r with table := {} } : Steps Unit).run r =
      .ok () { r with table := {} } := rfl
  rw [Edit.steps, run_bind hclear, run_bind (run_placeAll _ _)]
  rfl

theorem erase_of_get?_eq_none {t : Table ModelId Record} (h : t.get? id = none) :
    t.erase id = t := by
  refine Table.ext_get? fun id' => ?_
  rw [Table.get?_erase]
  split
  next heq => rw [← compare_eq_iff.mp heq, h]
  next => rfl

theorem run_remove (r : Register) (id : ModelId) :
    (Edit.remove id).steps.run r =
      .ok (.removed (r.get? id.vendor id.product)) (r.remove id.vendor id.product) := by
  have hid : (⟨id.vendor, id.product⟩ : ModelId) = id := rfl
  have hget : (get : Steps Register).run r = .ok r r := rfl
  rw [Edit.steps, run_bind hget, get?, remove, Table.contains, hid]
  cases hfound : r.table.get? id with
  | none =>
    -- the table has been touched here, but the revision has not been counted up
    change EStateM.Result.ok _ { r with table := r.table.erase id } = _
    rw [erase_of_get?_eq_none hfound]
    rfl
  | some record => rfl

/-- The steps of a change lead where the register says. -/
theorem perform_eq (r : Register) (edit : Edit) :
    r.perform edit = (r.answer edit, r.apply edit) := by
  have hmerge (text : String) :
      (match (mergeText text).run r with
        | .ok answer r => (Except.ok answer, r)
        | .error e r => (Except.error e, r)) =
      (r.answer (.mergeJson text), r.apply (.mergeJson text)) := by
    rw [run_mergeText, answer, apply, mergeJson]
    cases recordsOfJson? text <;> rfl
  cases edit with
  | reset => rw [perform, run_reset]; rfl
  | insert record => rfl
  | setScheme id s => rw [perform, Edit.steps, run_giveScheme]; rfl
  | setRawScheme id left right hat =>
    rw [perform, Edit.steps, answer, apply, setRawScheme]
    cases Scheme.ofRaw? left right hat with
    | ok s => simp only [run_giveScheme]; rfl
    | error e => rfl
  | remove id => rw [perform, run_remove]; rfl
  | mergeJson text => exact hmerge text
  | load folder path =>
    rw [perform, Edit.steps, answer, apply, load]
    cases folder.readText path with
    | ok text => exact hmerge text
    | error cause => rfl

/-! ### Refusals -/

/-- A text that is a list of records. -/
def ListsRecords (text : String) : Prop :=
  ∃ items, Json.parse? text = some (.list items) ∧
    ∀ item ∈ items, ∃ record : Record, Storable.ofTree? Json.dialect item = some record

/-- Whether a change is refused. -/
def Edit.Refused (r : Register) : Edit → Prop
  | setRawScheme _ left right hat => 2 < left ∨ 3 < right ∨ 4 < hat
  | remove id => r.get? id.vendor id.product = none
  | mergeJson text => ¬ ListsRecords text
  | load folder path => ∀ text, folder.readText path = .ok text → ¬ ListsRecords text
  | reset | insert _ | setScheme _ _ => False

/-- Whether an answer tells of a change that has not been done. -/
def failed : Except Refusal Answer → Bool
  | .error _ | .ok (.removed none) => true
  | .ok _ => false

theorem leftStick_ofIndex?_eq_none_iff {n : Nat} : LeftStick.ofIndex? n = none ↔ 2 < n := by
  simp only [LeftStick.ofIndex?, LeftStick.all, LeftStick.index, List.find?_eq_none, List.mem_cons,
    List.not_mem_nil, or_false, forall_eq_or_imp, forall_eq, beq_iff_eq]
  omega

theorem rightStick_ofIndex?_eq_none_iff {n : Nat} : RightStick.ofIndex? n = none ↔ 3 < n := by
  simp only [RightStick.ofIndex?, RightStick.all, RightStick.index, List.find?_eq_none,
    List.mem_cons, List.not_mem_nil, or_false, forall_eq_or_imp, forall_eq, beq_iff_eq]
  omega

theorem hat_ofIndex?_eq_none_iff {n : Nat} : Hat.ofIndex? n = none ↔ 4 < n := by
  simp only [Hat.ofIndex?, Hat.all, Hat.index, List.find?_eq_none, List.mem_cons,
    List.not_mem_nil, or_false, forall_eq_or_imp, forall_eq, beq_iff_eq]
  omega

theorem ofRaw?_eq_error_iff {left right hat : Nat} :
    (∃ e, Scheme.ofRaw? left right hat = .error e) ↔ 2 < left ∨ 3 < right ∨ 4 < hat := by
  rw [← leftStick_ofIndex?_eq_none_iff, ← rightStick_ofIndex?_eq_none_iff,
    ← hat_ofIndex?_eq_none_iff, Scheme.ofRaw?]
  cases LeftStick.ofIndex? left with
  | none => simp [bind, Except.bind]
  | some l =>
    cases RightStick.ofIndex? right with
    | none => simp [bind, Except.bind]
    | some r => cases Hat.ofIndex? hat <;> simp [bind, Except.bind, pure, Except.pure]

theorem mapM_eq_none_iff {α β : Type} {f : α → Option β} {l : List α} :
    l.mapM f = none ↔ ∃ a ∈ l, f a = none := by
  induction l with
  | nil => simp
  | cons a rest ih =>
    rw [List.mapM_cons, List.exists_mem_cons_iff, ← ih]
    cases f a with
    | none => simp
    | some b => cases rest.mapM f <;> simp

theorem recordsOfJson?_eq_none_iff : recordsOfJson? text = none ↔ ¬ ListsRecords text := by
  rw [recordsOfJson?, ListsRecords]
  cases Json.parse? text with
  | none => simp
  | some tree =>
    cases tree with
    | list items =>
      change items.mapM (Storable.ofTree? Json.dialect) = none ↔ _
      rw [mapM_eq_none_iff]
      simp only [Option.some.injEq, Tree.list.injEq, exists_eq_left', not_forall, not_exists,
        exists_prop, Option.eq_none_iff_forall_ne_some]
    | _ => simp [Storable.ofTree?]

theorem failed_mergeJson_iff (r : Register) (text : String) :
    failed (r.answer (.mergeJson text)) = true ↔ ¬ ListsRecords text := by
  rw [← recordsOfJson?_eq_none_iff, answer, mergeJson]
  cases recordsOfJson? text <;> simp [failed, answerOfMerge]

/-- A change fails if and only if it is refused. -/
theorem failed_iff (r : Register) (edit : Edit) :
    failed (r.answer edit) = true ↔ edit.Refused r := by
  cases edit with
  | reset | insert record | setScheme id s => simp [answer, failed, Edit.Refused]
  | setRawScheme id left right hat =>
    rw [Edit.Refused, ← ofRaw?_eq_error_iff, answer, setRawScheme]
    cases Scheme.ofRaw? left right hat <;> simp [failed, bind, Except.bind, pure, Except.pure]
  | remove id =>
    rw [Edit.Refused, answer]
    cases r.get? id.vendor id.product <;> simp [failed]
  | mergeJson text => exact failed_mergeJson_iff r text
  | load folder path =>
    have hmerge := failed_mergeJson_iff r
    simp only [answer] at hmerge
    rw [Edit.Refused, answer, load]
    cases folder.readText path with
    | ok text => simpa using hmerge text
    | error cause => simp [failed, answerOfMerge]

/-- Either a change has failed and nothing is changed, or there is another table, counted once. -/
theorem apply_cases (r : Register) (edit : Edit) :
    (failed (r.answer edit) = true ∧ r.apply edit = r) ∨
      (failed (r.answer edit) = false ∧ ∃ t, r.apply edit = r.changed t) := by
  have hmerge (text : String) : (failed (r.answer (.mergeJson text)) = true ∧
      r.apply (.mergeJson text) = r) ∨ (failed (r.answer (.mergeJson text)) = false ∧
        ∃ t, r.apply (.mergeJson text) = r.changed t) := by
    rw [answer, apply, mergeJson]
    cases recordsOfJson? text with
    | none => exact .inl ⟨rfl, rfl⟩
    | some records => exact .inr ⟨rfl, _, rfl⟩
  cases edit with
  | reset | insert record | setScheme id s => exact .inr ⟨rfl, _, rfl⟩
  | setRawScheme id left right hat =>
    rw [answer, apply, setRawScheme]
    cases Scheme.ofRaw? left right hat with
    | ok s => exact .inr ⟨rfl, _, rfl⟩
    | error e => exact .inl ⟨rfl, rfl⟩
  | remove id =>
    rw [answer, apply, get?, remove, Table.contains]
    cases r.table.get? ⟨id.vendor, id.product⟩ with
    | none => exact .inl ⟨rfl, rfl⟩
    | some record => exact .inr ⟨rfl, _, rfl⟩
  | mergeJson text => exact hmerge text
  | load folder path =>
    rw [answer, apply, load]
    cases folder.readText path with
    | ok text => exact hmerge text
    | error cause => exact .inl ⟨rfl, rfl⟩

/-! ### Bad selectors -/

/-- The selectors of a scheme, each with its greatest number. -/
def selectorBounds : List (String × Nat) := [("left", 2), ("right", 3), ("hat", 4)]

/-- An item with a selector that is not one of its numbers. -/
def BadSelector (item : Tree) : Prop :=
  ∃ members scheme selectors name bound selector,
    item.fields? Json.dialect ["vendor_id", "product_id", "name", "icon", "scheme", "known"] =
      some members ∧
    members.get? "scheme" = some scheme ∧
    scheme.fields? Json.dialect ["left", "right", "hat"] = some selectors ∧
    (name, bound) ∈ selectorBounds ∧ selectors.get? name = some selector ∧
    ∀ n ≤ bound, selector ≠ .int (Int.ofNat n)

theorem nat?_bind_eq_none {α : Type} {ofIndex? : Nat → Option α} {bound : Nat} {t : Tree}
    (hbound : ∀ n, ofIndex? n = none ↔ bound < n) (ht : ∀ n ≤ bound, t ≠ .int (Int.ofNat n)) :
    (t.nat? 0xFF >>= ofIndex?) = none := by
  cases hn : t.nat? 0xFF with
  | none => rfl
  | some n =>
    have heq : t = .int (Int.ofNat n) := by
      unfold Tree.nat? at hn
      split at hn
      · split at hn
        · rw [Option.some.inj hn]
        · simp at hn
      · simp at hn
    exact (hbound n).mpr (Nat.lt_of_not_le fun hle => ht n hle heq)

theorem withDefault_eq_none {α : Type} [Storable α] {fs : Fields} {name : String} {t : Tree}
    {default : α} (hget : fs.get? name = some t)
    (hread : Storable.ofTree? Json.dialect t = (none : Option α)) :
    Storable.withDefault Json.dialect fs name default = none := by
  rw [Storable.withDefault, hget]
  exact hread

theorem ofTree?_scheme_of_badSelector {scheme selector : Tree} {selectors : Fields} {name : String}
    {bound : Nat}
    (hselectors : scheme.fields? Json.dialect ["left", "right", "hat"] = some selectors)
    (hname : (name, bound) ∈ selectorBounds) (hselector : selectors.get? name = some selector)
    (hbad : ∀ n ≤ bound, selector ≠ .int (Int.ofNat n)) :
    (Storable.ofTree? Json.dialect scheme : Option Scheme) = none := by
  simp only [Storable.ofTree?, hselectors, Option.bind_eq_bind, Option.bind_some]
  simp only [selectorBounds, List.mem_cons, Prod.mk.injEq, List.not_mem_nil, or_false] at hname
  rcases hname with ⟨rfl, rfl⟩ | ⟨rfl, rfl⟩ | ⟨rfl, rfl⟩
  · have hleft : (Storable.ofTree? Json.dialect selector : Option LeftStick) = none :=
      nat?_bind_eq_none (fun _ => leftStick_ofIndex?_eq_none_iff) hbad
    rw [withDefault_eq_none hselector hleft, Option.bind_none]
  · have hright : (Storable.ofTree? Json.dialect selector : Option RightStick) = none :=
      nat?_bind_eq_none (fun _ => rightStick_ofIndex?_eq_none_iff) hbad
    simp only [withDefault_eq_none hselector hright, Option.bind_none, Option.bind_fun_none]
  · have hhat : (Storable.ofTree? Json.dialect selector : Option Hat) = none :=
      nat?_bind_eq_none (fun _ => hat_ofIndex?_eq_none_iff) hbad
    simp only [withDefault_eq_none hselector hhat, Option.bind_none, Option.bind_fun_none]

/-- A record with such a selector is none. -/
theorem ofTree?_of_badSelector {item : Tree} (h : BadSelector item) :
    (Storable.ofTree? Json.dialect item : Option Record) = none := by
  obtain ⟨members, scheme, selectors, name, bound, selector, hmembers, hscheme, hselectors, hname,
    hselector, hbad⟩ := h
  have hnone : Storable.withDefault Json.dialect members "scheme" ({} : Scheme) = none :=
    withDefault_eq_none hscheme (ofTree?_scheme_of_badSelector hselectors hname hselector hbad)
  simp only [Storable.ofTree?, hmembers, Option.bind_eq_bind, Option.bind_some, hnone,
    Option.bind_none, Option.bind_fun_none]

theorem not_listsRecords_of_badSelector {before after : List Tree} {bad : Tree}
    (h : Json.parse? text = some (.list (before ++ bad :: after))) (hbad : BadSelector bad) :
    ¬ ListsRecords text := by
  rintro ⟨items, hitems, hall⟩
  obtain rfl : before ++ bad :: after = items := by simpa [h] using hitems
  obtain ⟨record, hrecord⟩ := hall bad (by simp)
  rw [ofTree?_of_badSelector hbad] at hrecord
  simp at hrecord

/-! ### Runs of changes -/

/-- The register after some changes. -/
def after (r : Register) (edits : List Edit) : Register :=
  edits.foldl (fun r edit => (r.perform edit).2) r

/-- What some changes answer, one after the other. -/
def answers : Register → List Edit → List (Except Refusal Answer)
  | _, [] => []
  | r, edit :: rest => (r.perform edit).1 :: answers (r.perform edit).2 rest

/-- The revision has not gone down; if it has not gone up the register is still the same. -/
def LeadsTo (r s : Register) : Prop := r.revision ≤ s.revision ∧ (s.revision = r.revision → s = r)

theorem LeadsTo.refl (r : Register) : r.LeadsTo r := ⟨Nat.le_refl _, fun _ => rfl⟩

theorem LeadsTo.trans {r s t : Register} (h : r.LeadsTo s) (h' : s.LeadsTo t) : r.LeadsTo t := by
  refine ⟨Nat.le_trans h.1 h'.1, fun heq => ?_⟩
  have hmiddle : s.revision = r.revision := Nat.le_antisymm (heq ▸ h'.1) h.1
  rw [h'.2 (heq.trans hmiddle.symm), h.2 hmiddle]

theorem leadsTo_perform (r : Register) (edit : Edit) : r.LeadsTo (r.perform edit).2 := by
  rw [perform_eq]
  obtain ⟨-, happly⟩ | ⟨-, t, happly⟩ := r.apply_cases edit
  · rw [happly]
    exact .refl r
  · rw [happly]
    exact ⟨Nat.le_succ _, fun heq => absurd heq (Nat.succ_ne_self _)⟩

theorem leadsTo_after (r : Register) (edits : List Edit) : r.LeadsTo (r.after edits) := by
  induction edits generalizing r with
  | nil => exact .refl r
  | cons edit rest ih => exact (leadsTo_perform r edit).trans (ih _)

theorem leadsTo_take (r : Register) (edits : List Edit) {i j : Nat} (h : i ≤ j) :
    (r.after (edits.take i)).LeadsTo (r.after (edits.take j)) := by
  have hsplit : edits.take j = edits.take i ++ (edits.take j).drop i := by
    conv_lhs => rw [← List.take_append_drop i (edits.take j), List.take_take, Nat.min_eq_left h]
  rw [hsplit, after, after, List.foldl_append]
  exact leadsTo_after _ _

/-- The revision goes up by the number of changes that are done. -/
theorem revision_after (r : Register) (edits : List Edit) :
    (r.after edits).revision = r.revision + (r.answers edits).countP (fun a => !failed a) := by
  induction edits generalizing r with
  | nil => rfl
  | cons edit rest ih =>
    have hafter : r.after (edit :: rest) = (r.perform edit).2.after rest := rfl
    rw [hafter, ih, answers, List.countP_cons, perform_eq]
    obtain ⟨hfailed, happly⟩ | ⟨hfailed, t, happly⟩ := r.apply_cases edit
    · simp [hfailed, happly]
    · simp [hfailed, happly, changed]
      omega

/-- The revision in 64 bits. -/
def counter (r : Register) : UInt64 := UInt64.ofNat r.revision

theorem toNat_counter (h : r.revision < 2 ^ 64) : r.counter.toNat = r.revision :=
  UInt64.toNat_ofNat_of_lt h

/-- **A change is done as a whole and counted once, or not at all.** A change that fails leaves the
register as it was, and every other change counts the revision up by one. Those fail that have to
read a text that is no list of records, or an unreadable file, those with a number that selects
nothing, and those that are to remove what is not there; a text is no list of records as soon as one
item, in whatever place, has a bad selector. So in a run of changes the revision goes up by the
number of those that are done, and where it is the same at two moments the register has been the
same in between. Sixty-four bits are enough to tell this as long as the revision fits. -/
theorem changes_are_whole (r : Register) (edits : List Edit) :
    (∀ (s : Register) (edit : Edit),
      s.perform edit = (s.answer edit, s.apply edit) ∧
        (failed (s.perform edit).1 = true ↔ edit.Refused s) ∧
        (edit.Refused s → (s.perform edit).2 = s) ∧
        (¬ edit.Refused s → (s.perform edit).2.revision = s.revision + 1)) ∧
      (∀ (text : String) (before after : List Tree) (bad : Tree),
        Json.parse? text = some (.list (before ++ bad :: after)) → BadSelector bad →
          ¬ ListsRecords text) ∧
      (r.after edits).revision = r.revision + (r.answers edits).countP (fun a => !failed a) ∧
      (let during (i : Nat) : Register := r.after (edits.take i)
        ∀ i k j, i ≤ k → k ≤ j →
          (during i).revision ≤ (during j).revision ∧
            ((during i).revision = (during j).revision → during k = during i) ∧
            ((r.after edits).revision < 2 ^ 64 →
              (during i).counter ≤ (during j).counter ∧
                ((during i).counter = (during j).counter → during k = during i))) := by
  refine ⟨fun s edit => ?_, fun _ _ _ _ h hbad => not_listsRecords_of_badSelector h hbad,
    revision_after r edits, ?_⟩
  · have hperform := s.perform_eq edit
    rw [← failed_iff s edit, hperform]
    refine ⟨rfl, Iff.rfl, fun hfailed => ?_, fun hdone => ?_⟩
    · obtain ⟨-, happly⟩ | ⟨hdone, -⟩ := s.apply_cases edit
      · exact happly
      · simp [hdone] at hfailed
    · obtain ⟨hfailed, -⟩ | ⟨-, t, happly⟩ := s.apply_cases edit
      · exact absurd hfailed hdone
      · exact congrArg revision happly
  · intro during i k j hik hkj
    obtain ⟨hrevision, -⟩ := r.leadsTo_take edits (Nat.le_trans hik hkj)
    have hbetween (heq : (during i).revision = (during j).revision) : during k = during i := by
      refine (r.leadsTo_take edits hik).2 (Nat.le_antisymm ?_ (r.leadsTo_take edits hik).1)
      exact Nat.le_trans (r.leadsTo_take edits hkj).1 (Nat.le_of_eq heq.symm)
    refine ⟨hrevision, hbetween, fun hfits => ?_⟩
    -- no revision on the way is beyond the last one, so all of them fit
    have hcounter (n : Nat) : (during n).counter.toNat = (during n).revision := by
      refine toNat_counter (Nat.lt_of_le_of_lt ?_ hfits)
      have hlast := r.leadsTo_take edits (Nat.le_max_left n edits.length)
      rw [List.take_of_length_le (Nat.le_max_right n edits.length)] at hlast
      exact hlast.1
    refine ⟨?_, fun heq => hbetween ?_⟩
    · rw [UInt64.le_iff_toNat_le, hcounter, hcounter]
      exact hrevision
    · rw [← hcounter, heq, hcounter]

/-- A second record with a bad selector keeps the first one out. -/
example :
    let text := "[\x7b\"vendor_id\": \"1\", \"product_id\": \"2\"\x7d, " ++
      "\x7b\"vendor_id\": \"3\", \"product_id\": \"4\", \"scheme\": \x7b\"left\": 3\x7d\x7d]"
    let after := empty.perform (.mergeJson text)
    failed after.1 = true ∧ after.2.records = [] ∧ after.2.revision = 0 := by
  decide +kernel

end PadRouter.Register

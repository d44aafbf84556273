import PadRouter.Config.Storage
import PadRouter.Proofs.Toml.Sections
import PadRouter.Proofs.Tree.Restoring

/-!
# Round trips through TOML

* `Toml.Arranges` — a value that is read off its tree in the order in which a document has it.
* `Toml.arranges_record` — a record is such a value if the values of its fields are.
* `Config.integers` — the integers of some settings.
* `Config.exists_toml` — settings whose integers are in range have a text, from which they are read.
* `Config.toml_round_trip` — settings come back from the text written for them.
-/

namespace PadRouter

open Storable

namespace Toml

/-- A value with a tree of tables, nested at most so deeply, that is read off the arranged tree. -/
structure Arranges {α : Type} [Storable α] (depth : Nat) (a : α) : Prop where
  tabular : Tabular depth (toTree a)
  read (d : Dialect) : ofTree? d (arranged (toTree a)) = some a

/-! ### Members in the order of a document -/

variable {ms : List (String × Tree)} {depth : Nat} {n : String} {t : Tree}

theorem arranged_of_inline (h : Inline t) : arranged t = t := by
  rcases h with _ | ⟨_ | _⟩ | _ <;> rfl

theorem arrangedItems_eq (items : List Tree) : arrangedItems items = items.map arranged := by
  induction items with
  | nil => rfl
  | cons t items ih => rw [arrangedItems, ih, List.map_cons]

theorem arrangedSections_eq (ms : List (String × Tree)) :
    arrangedSections ms =
      (ms.filter fun m => isSection m.2).map fun m => (m.1, arranged m.2) := by
  induction ms with
  | nil => rfl
  | cons m ms ih =>
    rw [arrangedSections, ih]
    cases hs : isSection m.2 <;> simp [hs]

/-- Every member is among the arranged ones, unless it is absent. -/
theorem mem_arranged (h : ∀ m ∈ ms, Tabular depth m.2) :
    (n, t) ∈ plainMembers ms ++ arrangedSections ms ↔
      ∃ t', (n, t') ∈ ms ∧ t' ≠ .null ∧ arranged t' = t := by
  have hsection {t : Tree} (hs : isSection t = true) : t ≠ .null := by
    rintro rfl
    contradiction
  rw [List.mem_append, mem_plainMembers, arrangedSections_eq, List.mem_map]
  constructor
  · rintro (⟨hm, hnull, hs⟩ | ⟨⟨n', t'⟩, hm, heq⟩)
    · exact ⟨t, hm, hnull, arranged_of_inline ((h _ hm).inline_of_plain hnull hs)⟩
    · obtain ⟨rfl, rfl⟩ := Prod.mk.inj heq
      obtain ⟨hmem, hs⟩ := List.mem_filter.1 hm
      exact ⟨t', hmem, hsection hs, rfl⟩
  · rintro ⟨t', hm, hnull, rfl⟩
    cases hs : isSection t' with
    | false =>
      rw [arranged_of_inline ((h _ hm).inline_of_plain hnull hs)]
      exact .inl ⟨hm, hnull, hs⟩
    | true => exact .inr ⟨(n, t'), List.mem_filter.2 ⟨hm, hs⟩, rfl⟩

theorem nodup_arranged (hnames : (ms.map Prod.fst).Nodup) :
    ((plainMembers ms ++ arrangedSections ms).map Prod.fst).Nodup := by
  have hsections : (arrangedSections ms).map Prod.fst =
      (ms.filter fun m => isSection m.2).map Prod.fst := by
    rw [arrangedSections_eq, List.map_map]
    rfl
  rw [List.map_append, hsections, List.nodup_append]
  refine ⟨nodup_plainMembers hnames, hnames.sublist (List.filter_sublist.map Prod.fst), ?_⟩
  rintro n hplain _ hsection rfl
  obtain ⟨m, hm, rfl⟩ := List.mem_map.1 hplain
  obtain ⟨m', hm', heq⟩ := List.mem_map.1 hsection
  obtain ⟨hmem, -, hs⟩ := mem_plainMembers.1 hm
  obtain ⟨hmem', hs'⟩ := List.mem_filter.1 hm'
  obtain rfl := List.inj_on_of_nodup_map hnames hmem' hmem heq
  rw [hs'] at hs
  contradiction

/-! ### Records and lists -/

variable {slots : List Slot} {α : Type} [Storable α] {a : α}

/-- The values of slots can be read in the order of a document, where absent ones have their
default. -/
theorem yields_arranged (hnames : (slots.map Slot.name).Nodup)
    (h : ∀ s ∈ slots, Arranges depth s.value)
    (habsent : ∀ s ∈ slots, toTree s.value = .null → s.default = some s.value) :
    Yields slots (plainMembers (slots.map Slot.member) ++
      arrangedSections (slots.map Slot.member)) := by
  have hms : ∀ m ∈ slots.map Slot.member, Tabular depth m.2 := by
    intro m hm
    obtain ⟨s, hs, rfl⟩ := List.mem_map.1 hm
    exact (h s hs).tabular
  have hmembers : ((slots.map Slot.member).map Prod.fst).Nodup := by
    rw [List.map_map]
    exact hnames
  have hnodup := nodup_arranged hmembers
  refine ⟨hnodup, fun m hm => ?_, fun s hs d => ?_⟩
  · obtain ⟨t, hmem, -, -⟩ := (mem_arranged hms).1 hm
    obtain ⟨s, hs, heq⟩ := List.mem_map.1 hmem
    exact List.mem_map.2 ⟨s, hs, congrArg Prod.fst heq⟩
  · have hmem : (s.name, toTree s.value) ∈ slots.map Slot.member := List.mem_map_of_mem hs
    by_cases hnull : toTree s.value = .null
    · have hout : s.name ∉ (plainMembers (slots.map Slot.member) ++
          arrangedSections (slots.map Slot.member)).map Prod.fst := by
        intro hin
        obtain ⟨⟨n, t⟩, hm, rfl⟩ := List.mem_map.1 hin
        obtain ⟨t', hmem', hne, -⟩ := (mem_arranged hms).1 hm
        have heq := List.inj_on_of_nodup_map hmembers hmem' hmem rfl
        exact hne ((congrArg Prod.snd heq).trans hnull)
      rw [member?_of_not_mem hout]
      exact habsent s hs hnull
    · rw [member?_of_mem hnodup ((mem_arranged hms).2 ⟨_, hmem, hnull, rfl⟩)]
      exact (h s hs).read d

/-- A record is read in the order of a document if its written slots are, and if their values can be
read in any order. -/
theorem arranges_record (htree : toTree a = .record (slots.map Slot.member))
    (hnames : (slots.map Slot.name).Nodup) (h : ∀ s ∈ slots, Arranges depth s.value)
    (habsent : ∀ s ∈ slots, toTree s.value = .null → s.default = some s.value)
    (hread : ∀ ms, Yields slots ms → ∀ d, ofTree? d (.record ms) = some a) :
    Arranges (depth + 1) a where
  tabular := by
    rw [htree]
    refine .record (by rw [List.map_map]; exact hnames) fun m hm => ?_
    obtain ⟨s, hs, rfl⟩ := List.mem_map.1 hm
    exact (h s hs).tabular
  read d := by
    rw [htree, arranged]
    exact hread _ (yields_arranged hnames h habsent) d

theorem arranges_inline [Trimmable α] (ha : Restores a) (h : Inline (toTree a)) :
    Arranges depth a where
  tabular := .value h
  read d := by
    rw [arranged_of_inline h]
    exact (ha.read ha.whole).2 d

theorem arranges_list {l : List α} (h : ∀ a ∈ l, Arranges depth a)
    (hrecords : ∀ a ∈ l, isRecord (toTree a) = true) : Arranges depth l where
  tabular := by
    cases l with
    | nil => exact .value .empty
    | cons a l =>
      refine .tables (by simp) ?_ ?_
      · simpa using hrecords
      · simpa using fun a ha => (h a ha).tabular
  read d := by
    change (arrangedItems (l.map toTree)).mapM (ofTree? d) = some l
    refine mapM_ofTree? ?_
    rw [arrangedItems_eq, List.map_map, List.forall₂_map_left_iff, List.forall₂_same]
    exact fun a ha => (h a ha).read d

/-! ### Settings -/

theorem fits64_natCast {n : Nat} (h : n ≤ 0x7FFFFFFFFFFFFFFF) : fits64 n = true := by
  simp only [fits64, Bool.and_eq_true, decide_eq_true_eq]
  omega

theorem arranges_bool (b : Bool) : Arranges depth b :=
  arranges_inline (restores_bool b) (.word (.bool b))

theorem arranges_uInt16 (n : UInt16) : Arranges depth n := by
  have hbound : n.toNat ≤ 0x7FFFFFFFFFFFFFFF := by have := n.toNat_lt; omega
  exact arranges_inline (restores_uInt16 n) (.word (.int (fits64_natCast hbound)))

theorem arranges_uInt64 {n : UInt64} (h : n.toNat ≤ 0x7FFFFFFFFFFFFFFF) : Arranges depth n :=
  arranges_inline (restores_uInt64 n) (.word (.int (fits64_natCast h)))

theorem arranges_bindable (b : Bindable) : Arranges depth b :=
  arranges_inline (restores_bindable b) (.text _)

theorem arranges_none : Arranges depth (none : Option α) := ⟨.null, fun _ => rfl⟩

theorem arranges_modifiers (m : Modifiers) : Arranges (depth + 1) m := by
  have htree : toTree m = .record (m.slots.map Slot.member) := rfl
  refine arranges_record htree (by simp [Modifiers.slots]) ?_ ?_ fun ms h d => yields_modifiers h d
  · simp [Modifiers.slots, arranges_bool]
  · simp [Modifiers.slots, toTree]

theorem arranges_key (k : Key) : Arranges (depth + 2) k := by
  refine arranges_record k.toTree_eq ?_ ?_ ?_ fun ms h d => yields_key h d
  · cases hempty : k.modifiers.isEmpty <;> simp [Key.written, hempty]
  · cases hempty : k.modifiers.isEmpty <;>
      simp [Key.written, hempty, arranges_uInt16, arranges_modifiers]
  · cases hempty : k.modifiers.isEmpty <;> simp [Key.written, hempty, toTree]

theorem arranges_keyBinding (b : KeyBinding) : Arranges (depth + 3) b := by
  have htree : toTree b = .record (b.slots.map Slot.member) := rfl
  refine arranges_record htree (by simp [KeyBinding.slots]) ?_ ?_ fun ms h d =>
    yields_keyBinding h d
  · simp [KeyBinding.slots, arranges_key, arranges_bindable]
  · simp [KeyBinding.slots, toTree]

theorem arranges_keyMap {m : KeyMap} (h : m.OneKey) : Arranges (depth + 3) m := by
  have hlist : Arranges (depth + 3) m.bindings :=
    arranges_list (fun b _ => arranges_keyBinding b) fun _ _ => rfl
  refine ⟨hlist.tabular, fun d => ?_⟩
  change (ofTree? d (arranged (toTree m.bindings))).map KeyMap.ofBindings = some m
  rw [hlist.read d, Option.map_some, KeyMap.ofBindings_bindings h]

theorem arranges_keyMaps {m : KeyMaps} (h : ∀ id, (m.get id).OneKey) : Arranges (depth + 4) m := by
  have htree : toTree m = .record (m.slots.map Slot.member) := rfl
  refine arranges_record htree (by simp [KeyMaps.slots]) ?_ ?_ fun ms h d => yields_keyMaps h d
  · simp only [KeyMaps.slots, List.forall_mem_cons]
    exact ⟨arranges_keyMap (h .mouse), arranges_keyMap (h .keyset1), arranges_keyMap (h .keyset2),
      by simp⟩
  · simp [KeyMaps.slots, toTree]

end Toml

namespace Config

open Toml

/-- The integers of some settings: the number of slots, the slots on the ports, and the codes of all
bound keys. -/
def integers (c : Config) : List Nat :=
  c.slotLimit.toNat :: Port.all.filterMap c.slotOn ++
    KeyMapId.all.flatMap fun id => (c.keyMaps.get id).bindings.map fun b => b.key.code.toNat

variable {c : Config}

theorem slotLimit_mem_integers (c : Config) : c.slotLimit.toNat ∈ c.integers :=
  List.mem_cons_self

theorem slot_mem_integers (port : Port) {slot : Nat} (h : c.slotOn port = some slot) :
    slot ∈ c.integers := by
  refine List.mem_append_left _ (List.mem_cons_of_mem _ (List.mem_filterMap.2 ⟨port, ?_, h⟩))
  cases port <;> simp [Port.all]

/-- Only the number of slots and the slots on the ports can be out of range. -/
theorem mem_integers_iff {n : Nat} (h : 0x7FFFFFFFFFFFFFFF < n) :
    n ∈ c.integers ↔ n = c.slotLimit.toNat ∨ ∃ port, c.slotOn port = some n := by
  constructor
  · intro hmem
    obtain hmem | hcode := List.mem_append.1 hmem
    · obtain rfl | hslot := List.mem_cons.1 hmem
      · exact .inl rfl
      · obtain ⟨port, -, hport⟩ := List.mem_filterMap.1 hslot
        exact .inr ⟨port, hport⟩
    · obtain ⟨id, -, hid⟩ := List.mem_flatMap.1 hcode
      obtain ⟨b, -, rfl⟩ := List.mem_map.1 hid
      have := b.key.code.toNat_lt
      omega
  · rintro (rfl | ⟨port, hport⟩)
    · exact c.slotLimit_mem_integers
    · exact slot_mem_integers port hport

theorem arranges_config (hkeys : ∀ id, (c.keyMaps.get id).OneKey)
    (h : ∀ n ∈ c.integers, n ≤ 0x7FFFFFFFFFFFFFFF) : Arranges 5 c := by
  have htree : toTree c = .record (c.slots.map Slot.member) := rfl
  have hpath : Arranges 4 c.registerPath := by
    cases c.registerPath with
    | none => exact arranges_none
    | some s => exact arranges_inline (restores_text? (some s)) (.text s)
  have hslot {o : Option UInt64} (ho : ∀ n ∈ o.map UInt64.toNat, n ≤ 0x7FFFFFFFFFFFFFFF) :
      Arranges 4 o := by
    cases o with
    | none => exact arranges_none
    | some n =>
      have hn : n.toNat ≤ 0x7FFFFFFFFFFFFFFF := ho _ rfl
      exact arranges_inline (restores_uInt64? (some n)) (.word (.int (fits64_natCast hn)))
  refine arranges_record htree (by simp [Config.slots]) ?_ ?_ fun ms h d => yields_config h d
  · simp only [Config.slots, List.forall_mem_cons]
    exact ⟨arranges_uInt64 (h _ c.slotLimit_mem_integers), arranges_bool _, arranges_bool _, hpath,
      hslot fun n hn => h n (slot_mem_integers .one hn),
      hslot fun n hn => h n (slot_mem_integers .two hn), arranges_keyMaps hkeys, by simp⟩
  · have habsent {β : Type} [Storable β] (hnull : ∀ b : β, toTree b ≠ .null) (o : Option β) :
        toTree o = .null → some none = some o := by
      cases o with
      | none => exact fun _ => rfl
      | some b => exact fun h => absurd h (hnull b)
    simp only [Config.slots, List.forall_mem_cons]
    exact ⟨fun h => Tree.noConfusion h, fun h => Tree.noConfusion h, fun h => Tree.noConfusion h,
      habsent (fun _ => Tree.noConfusion) _, habsent (fun _ => Tree.noConfusion) _,
      habsent (fun _ => Tree.noConfusion) _, fun h => Tree.noConfusion h, by simp⟩

theorem le_of_holds {n : Nat} (h : holds (.int n) = true) : n ≤ 0x7FFFFFFFFFFFFFFF := by
  rw [holds, fits64, Bool.and_eq_true, decide_eq_true_eq, decide_eq_true_eq] at h
  omega

/-- Settings that can be written have no integer out of range. -/
theorem integers_le_of_holds (h : holds (toTree c) = true) :
    ∀ n ∈ c.integers, n ≤ 0x7FFFFFFFFFFFFFFF := by
  have hmembers : ∀ m ∈ c.slots.map Slot.member, m.2 ≠ .null → holds m.2 = true :=
    holdsMembers_iff.1 h
  have hslot {o : Option UInt64} {slot : Nat} (hmem : toTree o ≠ .null → holds (toTree o) = true)
      (ho : o.map UInt64.toNat = some slot) : slot ≤ 0x7FFFFFFFFFFFFFFF := by
    obtain ⟨n, rfl, rfl⟩ := Option.map_eq_some_iff.1 ho
    exact le_of_holds (hmem Tree.noConfusion)
  simp only [Config.slots, List.map_cons, List.forall_mem_cons, Slot.member] at hmembers
  obtain ⟨hlimit, -, -, -, hport1, hport2, -⟩ := hmembers
  intro n hn
  by_contra hlarge
  rcases (mem_integers_iff (by omega)).1 hn with rfl | ⟨port, hport⟩
  · exact hlarge (le_of_holds (hlimit Tree.noConfusion))
  · cases port with
    | one => exact hlarge (hslot hport1 hport)
    | two => exact hlarge (hslot hport2 hport)

theorem toToml_of_large (h : ∃ n ∈ c.integers, 0x7FFFFFFFFFFFFFFF < n) :
    c.toToml = .error .unwritable := by
  obtain ⟨n, hn, hlarge⟩ := h
  have hholds : holds (toTree c) = false := by
    rw [Bool.eq_false_iff]
    intro hholds
    have := integers_le_of_holds hholds n hn
    omega
  rw [toToml, render?, hholds, Bool.and_false]
  rfl

/-- The text of settings is read as the same settings, and refused only if they make no sense. -/
theorem exists_toml (hedited : ∀ id, ∃ edits, c.keyMaps.get id = KeyMap.edited edits)
    (hint : ∀ n ∈ c.integers, n ≤ 0x7FFFFFFFFFFFFFFF) :
    ∃ text, c.toToml = .ok text ∧ ofToml text = c.validate.map fun _ => c := by
  have hkeys (id : KeyMapId) : (c.keyMaps.get id).OneKey := by
    obtain ⟨edits, hedits⟩ := hedited id
    rw [hedits]
    exact KeyMap.oneKey_edited edits
  have harranges := arranges_config hkeys hint
  have hdepth : 4 ≤ maxDepth := by decide
  obtain ⟨text, htext, hparse⟩ := parse?_render hdepth harranges.tabular
  refine ⟨text, ?_, ?_⟩
  · have hrender : render? (toTree c) = some text := htext
    rw [toToml, hrender]
    rfl
  · have hread : read? text = some c := by
      rw [read?, hparse]
      exact harranges.read dialect
    rw [ofToml, hread]
    change (do c.validate; return c : Except ConfigError Config) = _
    cases c.validate <;> rfl

/-- **Settings come back from TOML**, whatever edits their binding tables have had, with all
modifiers; an emptied table stays empty. Only integers above `2 ^ 63 - 1` cannot be written. -/
theorem toml_round_trip :
    (∀ c : Config, (∀ id, ∃ edits, c.keyMaps.get id = KeyMap.edited edits) → c.validate = .ok () →
      (∀ n ∈ c.integers, n ≤ 0x7FFFFFFFFFFFFFFF) →
        ∃ text, c.toToml = .ok text ∧ ofToml text = .ok c) ∧
      ∀ c : Config, (∃ n ∈ c.integers, 0x7FFFFFFFFFFFFFFF < n) → c.toToml = .error .unwritable := by
  refine ⟨fun c hedited hvalid hint => ?_, fun c h => toToml_of_large h⟩
  obtain ⟨text, htext, hread⟩ := exists_toml hedited hint
  exact ⟨text, htext, by rw [hread, hvalid]; rfl⟩

/-- A path with quotes and two lines, a key with a modifier, and an emptied table come back. -/
theorem emptied_table_comes_back :
    let maps : KeyMaps :=
      { mouse := KeyMap.edited [.bind ⟨36, { shift := true }⟩ .pressLeft], keyset1 := .empty }
    (∃ text, { registerPath := some "a \"b\"\n'c'", keyMaps := maps : Config }.toToml = .ok text ∧
      ofToml text = .ok { registerPath := some "a \"b\"\n'c'", keyMaps := maps }) ∧
      { slotLimit := 0x8000000000000000, keyMaps := maps : Config }.toToml =
        .error .unwritable := by
  refine ⟨toml_round_trip.1 _ (fun id => ?_) rfl (by decide), toml_round_trip.2 _ ?_⟩
  · cases id with
    | mouse => exact ⟨_, rfl⟩
    | keyset1 => exact ⟨[], rfl⟩
    | keyset2 => exact ⟨[.reset .keyset2], rfl⟩
  · exact ⟨_, slotLimit_mem_integers _, by decide⟩

end Config

end PadRouter

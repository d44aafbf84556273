import Mathlib.Data.List.Nodup
import PadRouter.Proofs.Toml.Lines

/-!
# Reading back TOML documents

A document keeps a tree but for its order: in every table the plain values come first.

* `Toml.arranged` — a tree in the order in which a document has it, without absent members.
* `Toml.Tabular` — the trees that are written with one line for each plain value.
* `Toml.Fills` — the sections of the members of a table, added one after the other.
* `Toml.parse?_render` — the document of such a tree is read as the arranged tree.
-/

namespace PadRouter.Toml

mutual

/-- A tree in the order in which a document has it, without absent members. -/
def arranged : Tree → Tree
  | .record members => .record (plainMembers members ++ arrangedSections members)
  | .list items => .list (arrangedItems items)
  | t => t

/-- The members that have sections of their own. -/
def arrangedSections : List (String × Tree) → List (String × Tree)
  | [] => []
  | (n, t) :: rest =>
    if isSection t then (n, arranged t) :: arrangedSections rest else arrangedSections rest

/-- The tables of an array. -/
def arrangedItems : List Tree → List Tree
  | [] => []
  | t :: rest => arranged t :: arrangedItems rest

end

/-- A tree of tables, nested at most so deeply, with values that are written on one line. -/
inductive Tabular : Nat → Tree → Prop
  | null {depth : Nat} : Tabular depth .null
  | value {depth : Nat} {t : Tree} : Inline t → Tabular depth t
  | tables {depth : Nat} {items : List Tree} : items ≠ [] →
      (∀ t ∈ items, isRecord t = true) → (∀ t ∈ items, Tabular depth t) →
        Tabular depth (.list items)
  | record {depth : Nat} {members : List (String × Tree)} : (members.map Prod.fst).Nodup →
      (∀ m ∈ members, Tabular depth m.2) → Tabular (depth + 1) (.record members)

variable {depth : Nat} {t : Tree} {ms : List (String × Tree)} {items : List Tree}
  {array : Bool} {path : List String} {name : String} {bs : List Block}
  {entries inner : List (String × Node)}

/-! ### Sections of a tree -/

theorem isSection_of_inline (h : Inline t) : isSection t = false := by
  rcases h with _ | ⟨_ | _⟩ | _ <;> rfl

theorem Tabular.inline_of_plain (h : Tabular depth t) (hnull : t ≠ .null)
    (hs : isSection t = false) : Inline t := by
  cases h with
  | null => contradiction
  | value h => exact h
  | @tables _ items hne hrecords _ =>
    have hall : items.all isRecord = true := List.all_eq_true.2 hrecords
    have hempty : items.isEmpty = false := by simpa using hne
    rw [isSection, hempty, hall] at hs
    contradiction
  | record => contradiction

theorem mem_plainMembers {m : String × Tree} :
    m ∈ plainMembers ms ↔ m ∈ ms ∧ m.2 ≠ .null ∧ isSection m.2 = false := by
  obtain ⟨n, t⟩ := m
  rw [plainMembers, List.mem_filter]
  cases t <;> simp

theorem memberBlocks_eq (path : List String) (ms : List (String × Tree)) :
    memberBlocks path ms = ms.flatMap fun m => blocks false (path ++ [m.1]) m.2 := by
  induction ms with
  | nil => rfl
  | cons m ms ih => rw [memberBlocks, List.flatMap_cons, ih]

theorem elementBlocks_eq (path : List String) (items : List Tree) :
    elementBlocks path items = items.flatMap (blocks true path) := by
  induction items with
  | nil => rfl
  | cons t items ih => rw [elementBlocks, List.flatMap_cons, ih]

theorem blocks_of_not_section (h : isSection t = false) : blocks array path t = [] := by
  cases t with
  | record => contradiction
  | list items =>
    simp only [isSection] at h
    rw [blocks, if_neg (by simp [h])]
  | _ => rfl

theorem blocks_tables (h : isSection (.list items) = true) :
    blocks array path (.list items) = elementBlocks path items := by
  simp only [isSection] at h
  rw [blocks, if_pos h]

theorem Tabular.sound_ownBlock (h : ∀ m ∈ ms, Tabular depth m.2) :
    ∀ b ∈ ownBlock array path ms, b.path = path ∧ ∀ m ∈ b.values, Inline m.2 := by
  intro b hb
  simp only [ownBlock] at hb
  split_ifs at hb
  · obtain rfl := List.mem_singleton.1 hb
    refine ⟨rfl, fun m hm => ?_⟩
    obtain ⟨hmem, hnull, hs⟩ := mem_plainMembers.1 hm
    exact (h m hmem).inline_of_plain hnull hs
  · contradiction

/-- The sections of a tree have plain values, and paths that grow with its depth only. -/
theorem Tabular.sound_blocks (h : Tabular depth t) (array : Bool) (path : List String) :
    ∀ b ∈ blocks array path t, path.length ≤ b.path.length ∧
      b.path.length < path.length + depth ∧ ∀ m ∈ b.values, Inline m.2 := by
  induction h generalizing array path with
  | null => simp [blocks]
  | value h => rw [blocks_of_not_section (isSection_of_inline h)]; simp
  | @tables depth items _ _ _ ih =>
    intro b hb
    have hb : b ∈ elementBlocks path items := by
      rw [blocks] at hb
      split_ifs at hb
      · exact hb
      · contradiction
    rw [elementBlocks_eq, List.mem_flatMap] at hb
    obtain ⟨t, ht, hb⟩ := hb
    exact ih t ht true path b hb
  | @record depth members _ hmembers ih =>
    intro b hb
    obtain hown | hsub := List.mem_append.1 hb
    · obtain ⟨hpath, hvalues⟩ := Tabular.sound_ownBlock hmembers b hown
      rw [hpath]
      exact ⟨Nat.le_refl _, by omega, hvalues⟩
    · rw [memberBlocks_eq, List.mem_flatMap] at hsub
      obtain ⟨m, hm, hb⟩ := hsub
      obtain ⟨hlower, hupper, hvalues⟩ := ih m hm false (path ++ [m.1]) b hb
      rw [List.length_append, List.length_singleton] at hlower hupper
      exact ⟨by omega, by omega, hvalues⟩

/-! ### Sections inside a table -/

/-- A section, seen from outside the table with this name. -/
def Block.under (name : String) (b : Block) : Block := { b with path := name :: b.path }

theorem ownBlock_under (hpath : path ≠ []) :
    ownBlock array (name :: path) ms = (ownBlock array path ms).map (Block.under name) := by
  have hempty : path.isEmpty = false := by simpa using hpath
  simp only [ownBlock, List.isEmpty_cons, hempty]
  split_ifs <;> rfl

theorem Tabular.blocks_under (h : Tabular depth t) (array : Bool) (name : String)
    (hpath : path ≠ []) :
    blocks array (name :: path) t = (blocks array path t).map (Block.under name) := by
  induction h generalizing array path with
  | null => rfl
  | value h => rw [blocks_of_not_section (isSection_of_inline h),
      blocks_of_not_section (isSection_of_inline h), List.map_nil]
  | @tables depth items _ _ _ ih =>
    have hitems : elementBlocks (name :: path) items =
        (elementBlocks path items).map (Block.under name) := by
      rw [elementBlocks_eq, elementBlocks_eq, List.map_flatMap]
      exact List.flatMap_congr fun t ht => ih t ht true hpath
    rw [blocks, blocks, hitems]
    split_ifs <;> rfl
  | @record depth members _ _ ih =>
    have hmembers : memberBlocks (name :: path) members =
        (memberBlocks path members).map (Block.under name) := by
      rw [memberBlocks_eq, memberBlocks_eq, List.map_flatMap]
      exact List.flatMap_congr fun m hm => ih m hm false (by simp)
    rw [blocks, blocks, ownBlock_under hpath, hmembers, List.map_append]

theorem memberBlocks_under (h : ∀ m ∈ ms, Tabular depth m.2) (name : String) :
    memberBlocks [name] ms = (memberBlocks [] ms).map (Block.under name) := by
  rw [memberBlocks_eq, memberBlocks_eq, List.map_flatMap]
  exact List.flatMap_congr fun m hm => (h m hm).blocks_under false name (List.cons_ne_nil _ _)

/-- The sections of members belong to these members. -/
theorem sound_memberBlocks (h : ∀ m ∈ ms, Tabular depth m.2) :
    ∀ b ∈ memberBlocks [] ms,
      b.path ≠ [] ∧ b.path.length ≤ depth ∧ ∀ m ∈ b.values, Inline m.2 := by
  intro b hb
  rw [memberBlocks_eq, List.mem_flatMap] at hb
  obtain ⟨m, hm, hb⟩ := hb
  obtain ⟨hlower, hupper, hvalues⟩ := (h m hm).sound_blocks false [m.1] b hb
  rw [List.length_singleton] at hlower hupper
  exact ⟨List.ne_nil_of_length_pos (by omega), by omega, hvalues⟩

/-! ### Entries -/

theorem lookup_eq_none (h : name ∉ entries.map Prod.fst) : Node.lookup name entries = none := by
  induction entries with
  | nil => rfl
  | cons e entries ih =>
    obtain ⟨he, hentries⟩ := not_or.1 (List.mem_cons.not.1 h)
    rw [Node.lookup, if_neg (Ne.symm he), ih hentries]

variable {node : Node}

theorem lookup_concat (h : name ∉ entries.map Prod.fst) :
    Node.lookup name (entries ++ [(name, node)]) = some node := by
  induction entries with
  | nil => exact if_pos rfl
  | cons e entries ih =>
    obtain ⟨he, hentries⟩ := not_or.1 (List.mem_cons.not.1 h)
    rw [List.cons_append, Node.lookup, if_neg (Ne.symm he), ih hentries]

theorem update_concat (h : name ∉ entries.map Prod.fst) (node' : Node) :
    Node.update name node' (entries ++ [(name, node)]) = entries ++ [(name, node')] := by
  have hkeep : entries.map (fun e => if e.1 = name then (name, node') else e) = entries := by
    refine (List.map_congr_left fun e he => if_neg ?_).trans (List.map_id' entries)
    exact fun heq => h (heq ▸ List.mem_map_of_mem he)
  rw [Node.update, List.map_append, hkeep]
  simp

theorem members_append (entries more : List (String × Node)) :
    Node.members (entries ++ more) = Node.members entries ++ Node.members more := by
  induction entries with
  | nil => rfl
  | cons e entries ih => rw [List.cons_append, Node.members, Node.members, ih, List.cons_append]

/-- The nodes of plain values. -/
def valueNodes (values : List (String × Tree)) : List (String × Node) :=
  values.map fun m => (m.1, .value m.2)

theorem members_valueNodes (values : List (String × Tree)) :
    Node.members (valueNodes values) = values := by
  induction values with
  | nil => rfl
  | cons m values ih =>
    rw [valueNodes, List.map_cons, Node.members, Node.toTree]
    exact congrArg (m :: ·) ih

theorem fst_valueNodes (values : List (String × Tree)) :
    (valueNodes values).map Prod.fst = values.map Prod.fst := by
  simp [valueNodes]

/-- Values with names of their own are set one after the other. -/
theorem fill_values {values : List (String × Tree)}
    (h : (entries.map Prod.fst ++ values.map Prod.fst).Nodup) :
    Node.fill (values.map fun m => ⟨[], m.1, m.2⟩) entries =
      some (entries ++ valueNodes values) := by
  induction values generalizing entries with
  | nil => simp [Node.fill, valueNodes]
  | cons m values ih =>
    have hfresh : m.1 ∉ entries.map Prod.fst := by
      rw [List.map_cons, List.nodup_append] at h
      exact fun hmem => h.2.2 _ hmem _ List.mem_cons_self rfl
    have hassign : Node.assign [] m.1 m.2 entries = some (entries ++ [(m.1, .value m.2)]) := by
      rw [Node.assign, lookup_eq_none hfresh]
    have hrest := @ih (entries ++ [(m.1, .value m.2)]) (by simpa using h)
    rw [Node.fill, List.map_cons, List.foldlM_cons, hassign]
    refine hrest.trans ?_
    simp [valueNodes]

/-! ### Adding sections -/

/-- Adds some sections, one after the other. -/
def addBlocks (bs : List Block) (entries : List (String × Node)) : Option (List (String × Node)) :=
  bs.foldlM (fun es b => Node.addSection b.array b.pairs b.path es) entries

theorem addBlocks_cons (b : Block) (bs : List Block) (entries : List (String × Node)) :
    addBlocks (b :: bs) entries =
      (Node.addSection b.array b.pairs b.path entries).bind (addBlocks bs) := List.foldlM_cons

theorem addBlocks_append (bs bs' : List Block) (entries : List (String × Node)) :
    addBlocks (bs ++ bs') entries = (addBlocks bs entries).bind (addBlocks bs') :=
  List.foldlM_append

/-! ### One section -/

theorem addSection_table (h : name ∉ entries.map Prod.fst) (pairs : List Pair) :
    Node.addSection false pairs [name] entries =
      (Node.fill pairs []).map fun inner => entries ++ [(name, .table .header inner)] := by
  simp only [Node.addSection, lookup_eq_none h, Option.map_eq_bind]
  rfl

theorem addSection_array (h : name ∉ entries.map Prod.fst) (pairs : List Pair) :
    Node.addSection true pairs [name] entries =
      (Node.fill pairs []).map fun inner => entries ++ [(name, .tables [] inner)] := by
  simp only [Node.addSection, lookup_eq_none h, Option.map_eq_bind]
  rfl

theorem addSection_element (h : name ∉ entries.map Prod.fst) (pairs : List Pair)
    (earlier : List (List (String × Node))) (last : List (String × Node)) :
    Node.addSection true pairs [name] (entries ++ [(name, .tables earlier last)]) =
      (Node.fill pairs []).map fun inner =>
        entries ++ [(name, .tables (earlier ++ [last]) inner)] := by
  simp only [Node.addSection, lookup_concat h, update_concat h, Option.map_eq_bind]
  rfl

/-! ### Sections inside a table -/

/-- What later sections of a table change: the table itself, or the last table of an array. -/
inductive Opens : (List (String × Node) → Node) → Prop
  | table (origin : Origin) : Opens (.table origin)
  | tables (earlier : List (List (String × Node))) : Opens (.tables earlier)

variable {opened : List (String × Node) → Node}

theorem addSection_inside (hopened : Opens opened) (h : name ∉ entries.map Prod.fst)
    (hpath : path ≠ []) (pairs : List Pair) :
    Node.addSection array pairs (name :: path) (entries ++ [(name, opened inner)]) =
      (Node.addSection array pairs path inner).map fun inner =>
        entries ++ [(name, opened inner)] := by
  obtain ⟨p, path, rfl⟩ := List.exists_cons_of_ne_nil hpath
  have hstep : Node.addSection array pairs (name :: p :: path) (entries ++ [(name, opened inner)]) =
      (Node.addSection array pairs (p :: path) inner).bind fun inner' =>
        some (Node.update name (opened inner') (entries ++ [(name, opened inner)])) := by
    cases hopened with
    | table origin =>
      rw [Node.addSection, lookup_concat h]
      · rfl
      · simp
    | tables earlier =>
      rw [Node.addSection, lookup_concat h]
      · rfl
      · simp
  simp only [hstep, update_concat h, Option.map_eq_bind]
  rfl

theorem addBlocks_inside (hopened : Opens opened) (h : name ∉ entries.map Prod.fst)
    (hbs : ∀ b ∈ bs, b.path ≠ []) (inner : List (String × Node)) :
    addBlocks (bs.map (Block.under name)) (entries ++ [(name, opened inner)]) =
      (addBlocks bs inner).map fun inner => entries ++ [(name, opened inner)] := by
  induction bs generalizing inner with
  | nil => rfl
  | cons b bs ih =>
    obtain ⟨hb, hbs⟩ := List.forall_mem_cons.1 hbs
    have hstep : Node.addSection b.array (b.under name).pairs (name :: b.path)
        (entries ++ [(name, opened inner)]) =
          (Node.addSection b.array b.pairs b.path inner).map fun inner =>
            entries ++ [(name, opened inner)] := addSection_inside hopened h hb b.pairs
    rw [List.map_cons, addBlocks_cons, addBlocks_cons]
    refine (congrArg (Option.bind · _) hstep).trans ?_
    cases Node.addSection b.array b.pairs b.path inner with
    | none => rfl
    | some inner' => exact ih hbs inner'

/-- The first section inside a table without a header implies this table. -/
theorem addBlocks_implied (h : name ∉ entries.map Prod.fst) (hbs : ∀ b ∈ bs, b.path ≠ [])
    (hne : bs ≠ []) :
    addBlocks (bs.map (Block.under name)) entries =
      (addBlocks bs []).map fun inner => entries ++ [(name, .table .implied inner)] := by
  obtain ⟨b, bs, rfl⟩ := List.exists_cons_of_ne_nil hne
  obtain ⟨hb, hbs⟩ := List.forall_mem_cons.1 hbs
  obtain ⟨p, path, hpath⟩ := List.exists_cons_of_ne_nil hb
  have hstep : Node.addSection b.array (b.under name).pairs (name :: b.path) entries =
      (Node.addSection b.array b.pairs b.path []).map fun inner =>
        entries ++ [(name, .table .implied inner)] := by
    rw [hpath, Node.addSection, lookup_eq_none h, Option.map_eq_bind]
    · rfl
    · simp
  rw [List.map_cons, addBlocks_cons, addBlocks_cons]
  refine (congrArg (Option.bind · _) hstep).trans ?_
  cases Node.addSection b.array b.pairs b.path [] with
  | none => rfl
  | some inner => exact addBlocks_inside (.table .implied) h hbs inner

/-! ### Tables and arrays of tables -/

/-- Sections that add one entry, with this tree. -/
def Adds (bs : List Block) (name : String) (t : Tree) : Prop :=
  ∀ entries : List (String × Node), name ∉ entries.map Prod.fst →
    ∃ node, addBlocks bs entries = some (entries ++ [(name, node)]) ∧ node.toTree = t

theorem Adds.ne_nil (h : Adds bs name t) : bs ≠ [] := by
  rintro rfl
  obtain ⟨node, hadd, -⟩ := h [] (by simp)
  simp [addBlocks] at hadd

/-- The sections of members behind their plain values. -/
def Fills (ms : List (String × Tree)) : Prop :=
  ∃ more, addBlocks (memberBlocks [] ms) (valueNodes (plainMembers ms)) =
    some (valueNodes (plainMembers ms) ++ more) ∧ Node.members more = arrangedSections ms

/-- Members are added in order, whatever the table holds before, if their names are new. -/
theorem addBlocks_members (hnames : (ms.map Prod.fst).Nodup)
    (h : ∀ m ∈ ms, isSection m.2 = true → Adds (blocks false [m.1] m.2) m.1 (arranged m.2))
    (hfresh : ∀ m ∈ ms, isSection m.2 = true → m.1 ∉ inner.map Prod.fst) :
    ∃ more, addBlocks (memberBlocks [] ms) inner = some (inner ++ more) ∧
      Node.members more = arrangedSections ms := by
  induction ms generalizing inner with
  | nil => exact ⟨[], by simp [memberBlocks, addBlocks], rfl⟩
  | cons m ms ih =>
    obtain ⟨hm, hms⟩ := List.forall_mem_cons.1 h
    obtain ⟨hfreshM, hfreshMs⟩ := List.forall_mem_cons.1 hfresh
    obtain ⟨hname, hnames⟩ := List.nodup_cons.1 hnames
    cases hs : isSection m.2 with
    | false =>
      obtain ⟨more, hadd, htree⟩ := ih hnames hms hfreshMs
      refine ⟨more, ?_, ?_⟩
      · rw [memberBlocks, List.nil_append, blocks_of_not_section hs, List.nil_append]
        exact hadd
      · rw [arrangedSections, if_neg (by simp [hs])]
        exact htree
    | true =>
      obtain ⟨node, hadd, hnode⟩ := hm hs inner (hfreshM hs)
      have hfresh' : ∀ m' ∈ ms, isSection m'.2 = true →
          m'.1 ∉ (inner ++ [(m.1, node)]).map Prod.fst := by
        intro m' hm' hs' hmem
        rw [List.map_append, List.mem_append] at hmem
        obtain hold | hnew := hmem
        · exact hfreshMs m' hm' hs' hold
        · obtain heq : m'.1 = m.1 := by simpa using hnew
          exact hname (heq ▸ List.mem_map_of_mem hm')
      obtain ⟨more, hmore, htree⟩ := ih hnames hms hfresh'
      refine ⟨(m.1, node) :: more, ?_, ?_⟩
      · rw [memberBlocks, List.nil_append, addBlocks_append, hadd, Option.bind_some, hmore,
          List.append_assoc]
        rfl
      · rw [arrangedSections, if_pos hs, Node.members, hnode, htree]

theorem fills_of_adds (hnames : (ms.map Prod.fst).Nodup)
    (h : ∀ m ∈ ms, isSection m.2 = true → Adds (blocks false [m.1] m.2) m.1 (arranged m.2)) :
    Fills ms := by
  refine addBlocks_members hnames h fun m hm hs hmem => ?_
  rw [fst_valueNodes, List.mem_map] at hmem
  obtain ⟨m', hm', heq⟩ := hmem
  obtain ⟨hmem', -, hplain⟩ := mem_plainMembers.1 hm'
  -- names are unique, so a member with sections is not among the plain ones
  obtain rfl : m' = m := List.inj_on_of_nodup_map hnames hmem' hm heq
  rw [hs] at hplain
  contradiction

theorem nodup_plainMembers (hnames : (ms.map Prod.fst).Nodup) :
    ((plainMembers ms).map Prod.fst).Nodup :=
  hnames.sublist (List.filter_sublist.map Prod.fst)

/-- A header with its values, and then the sections of the other members. -/
theorem Fills.addBlocks (hfills : Fills ms) (hms : ∀ m ∈ ms, Tabular depth m.2)
    (hopened : Opens opened) (h : name ∉ entries.map Prod.fst)
    {before : List (String × Node)}
    (hheader : Node.addSection array (Block.pairs ⟨array, [name], plainMembers ms⟩) [name] before =
      some (entries ++ [(name, opened (valueNodes (plainMembers ms)))])) :
    ∃ last, Toml.addBlocks (⟨array, [name], plainMembers ms⟩ :: memberBlocks [name] ms) before =
      some (entries ++ [(name, opened last)]) ∧
        Node.members last = plainMembers ms ++ arrangedSections ms := by
  obtain ⟨more, hadd, htree⟩ := hfills
  refine ⟨valueNodes (plainMembers ms) ++ more, ?_, ?_⟩
  · rw [addBlocks_cons, hheader, Option.bind_some, memberBlocks_under hms,
      addBlocks_inside hopened h (fun b hb => (sound_memberBlocks hms b hb).1), hadd]
    rfl
  · rw [members_append, members_valueNodes, htree]

theorem fill_plainMembers (hnames : (ms.map Prod.fst).Nodup) :
    Node.fill (Block.pairs ⟨array, path, plainMembers ms⟩) [] =
      some (valueNodes (plainMembers ms)) :=
  fill_values (nodup_plainMembers hnames)

theorem adds_record (hnames : (ms.map Prod.fst).Nodup) (hms : ∀ m ∈ ms, Tabular depth m.2)
    (h : ∀ m ∈ ms, isSection m.2 = true → Adds (blocks false [m.1] m.2) m.1 (arranged m.2)) :
    Adds (blocks false [name] (.record ms)) name (arranged (.record ms)) := by
  intro entries hfresh
  have hfills := fills_of_adds hnames h
  rw [blocks, ownBlock]
  simp only [Bool.false_or, List.isEmpty_cons, Bool.not_false, Bool.true_and]
  split_ifs with hown
  · have hheader := addSection_table hfresh (Block.pairs ⟨false, [name], plainMembers ms⟩)
    rw [fill_plainMembers hnames] at hheader
    obtain ⟨last, hadd, htree⟩ := hfills.addBlocks hms (.table .header) hfresh hheader
    refine ⟨.table .header last, hadd, ?_⟩
    rw [Node.toTree, htree, arranged]
  · -- without values of its own the table is implied by the first section in it
    simp only [Bool.or_eq_true, Bool.not_eq_true', List.isEmpty_eq_false_iff, not_or, not_not,
      List.any_eq_false] at hown
    obtain ⟨hplain, hsections⟩ := hown
    have hne : memberBlocks [] ms ≠ [] := by
      intro hnil
      rw [memberBlocks_eq, List.flatMap_eq_nil_iff] at hnil
      exact hsections fun m hm hs => (h m hm hs).ne_nil (hnil m hm)
    obtain ⟨more, hadd, htree⟩ := hfills
    rw [hplain] at hadd
    refine ⟨.table .implied more, ?_, ?_⟩
    · have himplied := addBlocks_implied hfresh (fun b hb => (sound_memberBlocks hms b hb).1) hne
      rw [List.nil_append, memberBlocks_under hms, himplied]
      exact congrArg (Option.map _) hadd
    · rw [Node.toTree, htree, arranged, hplain, List.nil_append]

theorem elements_append (earlier later : List (List (String × Node))) :
    Node.elements (earlier ++ later) = Node.elements earlier ++ Node.elements later := by
  induction earlier with
  | nil => rfl
  | cons e earlier ih => rw [List.cons_append, Node.elements, Node.elements, ih, List.cons_append]

/-- The sections of one table of an array, behind those of the tables in front of it. -/
theorem addBlocks_element (hnames : (ms.map Prod.fst).Nodup) (hms : ∀ m ∈ ms, Tabular depth m.2)
    (hfills : Fills ms) (hfresh : name ∉ entries.map Prod.fst) {before : List (String × Node)}
    {earlier : List (List (String × Node))}
    (hheader : ∀ pairs, Node.addSection true pairs [name] before =
      (Node.fill pairs []).map fun inner => entries ++ [(name, .tables earlier inner)]) :
    ∃ last, addBlocks (blocks true [name] (.record ms)) before =
      some (entries ++ [(name, .tables earlier last)]) ∧
        .record (Node.members last) = arranged (.record ms) := by
  have hfirst := hheader (Block.pairs ⟨true, [name], plainMembers ms⟩)
  rw [fill_plainMembers hnames] at hfirst
  obtain ⟨last, hadd, htree⟩ := hfills.addBlocks hms (.tables earlier) hfresh hfirst
  exact ⟨last, hadd, by rw [htree, arranged]⟩

/-- A record that can stand in an array of tables. -/
def IsElement (t : Tree) : Prop :=
  ∃ ms depth, t = .record ms ∧ (ms.map Prod.fst).Nodup ∧ (∀ m ∈ ms, Tabular depth m.2) ∧ Fills ms

theorem addBlocks_elements (h : ∀ t ∈ items, IsElement t) (hfresh : name ∉ entries.map Prod.fst)
    (earlier : List (List (String × Node))) (last : List (String × Node)) :
    ∃ earlier' last', addBlocks (elementBlocks [name] items)
        (entries ++ [(name, .tables earlier last)]) =
      some (entries ++ [(name, .tables earlier' last')]) ∧
        (Node.tables earlier' last').toTree =
          .list (Node.elements earlier ++ .record (Node.members last) :: arrangedItems items) := by
  induction items generalizing earlier last with
  | nil => exact ⟨earlier, last, by simp [elementBlocks, addBlocks], rfl⟩
  | cons t items ih =>
    obtain ⟨⟨ms, depth, rfl, hnames, hms, hfills⟩, hitems⟩ := List.forall_mem_cons.1 h
    obtain ⟨last₁, hadd, htree⟩ := addBlocks_element hnames hms hfills hfresh fun pairs =>
      addSection_element hfresh pairs earlier last
    obtain ⟨earlier', last', hadd', htree'⟩ := ih hitems (earlier ++ [last]) last₁
    refine ⟨earlier', last', ?_, ?_⟩
    · rw [elementBlocks, addBlocks_append, hadd]
      exact hadd'
    · rw [htree', elements_append, htree, arrangedItems, List.append_assoc]
      rfl

theorem adds_tables (hne : items ≠ []) (h : ∀ t ∈ items, IsElement t) :
    Adds (elementBlocks [name] items) name (arranged (.list items)) := by
  obtain ⟨t, items, rfl⟩ := List.exists_cons_of_ne_nil hne
  obtain ⟨⟨ms, depth, rfl, hnames, hms, hfills⟩, hitems⟩ := List.forall_mem_cons.1 h
  intro entries hfresh
  obtain ⟨last₁, hadd, htree⟩ := addBlocks_element hnames hms hfills hfresh fun pairs =>
    addSection_array hfresh pairs
  obtain ⟨earlier, last, hadd', htree'⟩ := addBlocks_elements hitems hfresh [] last₁
  refine ⟨.tables earlier last, ?_, ?_⟩
  · rw [elementBlocks, addBlocks_append, hadd]
    exact hadd'
  · rw [htree', htree]
    rfl

/-! ### Whole documents -/

/-- The sections of a member add it, and the sections of a record fill it. -/
theorem Tabular.adds (h : Tabular depth t) :
    (isSection t = true → ∀ name, Adds (blocks false [name] t) name (arranged t)) ∧
      (isRecord t = true → IsElement t) := by
  induction h with
  | null => exact ⟨fun hs => by contradiction, fun hr => by contradiction⟩
  | value h =>
    refine ⟨fun hs => ?_, fun hr => ?_⟩
    · rw [isSection_of_inline h] at hs
      contradiction
    · rcases h with _ | ⟨_ | _⟩ | _ <;> contradiction
  | @tables depth items hne hrecords _ ih =>
    refine ⟨fun hs name => ?_, fun hr => by contradiction⟩
    rw [blocks_tables hs]
    exact adds_tables hne fun t ht => (ih t ht).2 (hrecords t ht)
  | @record depth members hnames hmembers ih =>
    have hadds : ∀ m ∈ members, isSection m.2 = true →
        Adds (blocks false [m.1] m.2) m.1 (arranged m.2) := fun m hm hs => (ih m hm).1 hs m.1
    exact ⟨fun _ name => adds_record hnames hmembers hadds, fun _ =>
      ⟨members, depth, rfl, hnames, hmembers, fills_of_adds hnames hadds⟩⟩

theorem holdsAll_of_forall (h : ∀ t ∈ items, holds t = true) : holdsAll items = true := by
  induction items with
  | nil => rfl
  | cons t items ih =>
    obtain ⟨ht, hitems⟩ := List.forall_mem_cons.1 h
    rw [holdsAll, ht, ih hitems, Bool.true_and]

theorem holdsMembers_iff :
    holdsMembers ms = true ↔ ∀ m ∈ ms, m.2 ≠ .null → holds m.2 = true := by
  induction ms with
  | nil => simp [holdsMembers]
  | cons m ms ih =>
    obtain ⟨n, t⟩ := m
    rw [List.forall_mem_cons, ← ih]
    by_cases hnull : t = .null
    · simp [hnull, holdsMembers]
    · rw [holdsMembers, Bool.and_eq_true]
      · simp [hnull]
      · exact hnull

/-- TOML can hold such a tree, apart from absent values. -/
theorem Tabular.holds (h : Tabular depth t) (hnull : t ≠ .null) : holds t = true := by
  induction h with
  | null => contradiction
  | value h =>
    rcases h with _ | ⟨_ | hfits⟩ | _
    · rfl
    · rfl
    · exact hfits
    · rfl
  | tables _ hrecords _ ih =>
    refine holdsAll_of_forall fun t ht => ih t ht ?_
    rintro rfl
    exact absurd (hrecords _ ht) (by decide)
  | record _ _ ih => exact holdsMembers_iff.2 ih

theorem ownBlock_document (ms : List (String × Tree)) :
    ownBlock false [] ms =
      if (plainMembers ms).isEmpty then [] else [⟨false, [], plainMembers ms⟩] := by
  rw [ownBlock]
  cases (plainMembers ms).isEmpty <;> simp

/-- The document of a tree of tables is read as this tree, with the plain values of each table in
front. -/
theorem parse?_render (hdepth : depth ≤ maxDepth) (h : Tabular (depth + 1) (.record ms)) :
    ∃ text, render? (.record ms) = some text ∧ parse? text = some (arranged (.record ms)) := by
  obtain ⟨_, _, heq, hnames, hms, more, hadd, htree⟩ := h.adds.2 rfl
  obtain rfl : ms = _ := Tree.record.inj heq
  have hmembers : ∀ m ∈ ms, Tabular depth m.2 := by
    cases h with
    | value h => exact absurd (isSection_of_inline h) (by simp [isSection])
    | record _ h => exact h
  let top : Block := ⟨false, [], plainMembers ms⟩
  have htop : top.Sound := by
    refine ⟨Nat.zero_le _, fun m hm => ?_⟩
    obtain ⟨hmem, hnull, hs⟩ := mem_plainMembers.1 hm
    exact (hmembers m hmem).inline_of_plain hnull hs
  have hbs := sound_memberBlocks hmembers
  have hread := document_blocks htop rfl
    (fun b hb => ⟨Nat.le_trans (hbs b hb).2.1 hdepth, (hbs b hb).2.2⟩) fun b hb => (hbs b hb).1
  have hblocks : blocks false [] (.record ms) =
      (if top.values.isEmpty then [] else [top]) ++ memberBlocks [] ms := by
    rw [blocks, ownBlock_document]
  refine ⟨_, if_pos (by rw [h.holds (by simp)]; rfl), ?_⟩
  rw [hblocks, parse?, hread]
  have hfill : Node.fill top.pairs [] = some (valueNodes (plainMembers ms)) :=
    fill_plainMembers hnames
  have hsections : ((memberBlocks [] ms).map Block.toSection).foldlM
      (fun es s => Node.addSection s.array s.pairs s.path es) (valueNodes (plainMembers ms)) =
        some (valueNodes (plainMembers ms) ++ more) := by
    rw [List.foldlM_map]
    exact hadd
  change (Document.tree? _) = _
  rw [Document.tree?, hfill, Option.bind_eq_bind, Option.bind_some, hsections, arranged, ← htree]
  refine congrArg (fun ms => some (Tree.record ms)) ?_
  rw [members_append, members_valueNodes]

end PadRouter.Toml

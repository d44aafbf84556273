import Mathlib.Data.List.DropRight
import PadRouter.Proofs.Json.Leaves
import PadRouter.Proofs.Tree.Trimming

/-!
# How trees are spelled in JSON

* `Json.Spells` — the texts of a tree: with any blanks between the parts, and with leaves, names and
  texts as they are written.
* `Json.Reads`, `Json.reads_value` — a scanner reads each text of an item up to some length; values
  are read so up to the depth that is allowed.
* `Json.parse?_of_spells` — a text of a tree is read as this tree.
* `Json.spells_render` — what is written for a tree, in one line or in several, is among its texts.
-/

namespace PadRouter

namespace Json

variable {α : Type} {P : List Char → α → Prop} {a : α} {t : Tree} {n : Nat}
  {w w' cs ds rest : List Char}

/-- A text of blanks. -/
def Blank (w : List Char) : Prop := ∀ c ∈ w, isBlank c = true

/-- A text with blanks around it. -/
inductive Padded (P : List Char → α → Prop) : List Char → α → Prop
  | mk {w cs w' : List Char} {a : α} : Blank w → P cs a → Blank w' → Padded P (w ++ (cs ++ w')) a

/-- A name with its value, and blanks around the name. -/
inductive Member (P : List Char → α → Prop) : List Char → String × α → Prop
  | mk {w w' cs : List Char} {n : String} {a : α} :
    Blank w → Blank w' → P cs a → Member P (w ++ (quote n ++ (w' ++ ':' :: cs))) (n, a)

/-- The texts of a tree, up to blanks around them. -/
inductive Spells : List Char → Tree → Prop
  | null : Spells (leaf .null) .null
  | bool (b : Bool) : Spells (leaf (.bool b)) (.bool b)
  | int (n : Int) : Spells (leaf (.int n)) (.int n)
  | text (s : String) : Spells (leaf (.text s)) (.text s)
  | emptyList {w : List Char} : Blank w → Spells ('[' :: (w ++ [']'])) (.list [])
  | list {ds : List Char} {items : List Tree} :
    Scan.Rows ',' (Padded Spells) ds items → Spells ('[' :: (ds ++ [']'])) (.list items)
  | emptyRecord {w : List Char} : Blank w → Spells ('{' :: (w ++ ['}'])) (.record [])
  | record {ds : List Char} {members : List (String × Tree)} :
    Scan.Rows ',' (Member (Padded Spells)) ds members →
      Spells ('{' :: (ds ++ ['}'])) (.record members)

/-! ### Reading -/

/-- The places where a value ends: before the end of its list or record, or of the text. -/
def Closes (rest : List Char) : Prop := ∀ c ∈ rest.head?, c = ',' ∨ c = ']' ∨ c = '}'

theorem closes_cons {c : Char} (h : c = ',' ∨ c = ']' ∨ c = '}') (rest : List Char) :
    Closes (c :: rest) := by
  rintro d ⟨⟩
  exact h

theorem Closes.not_isBlank (h : Closes rest) : ∀ c ∈ rest.head?, isBlank c = false := by
  intro c hc
  obtain rfl | rfl | rfl := h c hc <;> rfl

/-- No number and no word goes on where a value ends or blanks stand. -/
theorem ends_append (hw : Blank w) (h : Closes rest) :
    ∀ c ∈ (w ++ rest).head?, isNumeral c = false ∧ c.isAlpha = false := by
  intro c hc
  cases w with
  | nil => obtain rfl | rfl | rfl := h c hc <;> exact ⟨rfl, rfl⟩
  | cons d w =>
    obtain rfl : d = c := by simpa using hc
    have hd : isBlank d = true := hw d List.mem_cons_self
    simp only [isBlank, Bool.or_eq_true, beq_iff_eq] at hd
    obtain ((rfl | rfl) | rfl) | rfl := hd <;> exact ⟨rfl, rfl⟩

theorem blanks_append (hw : Blank w) (h : ∀ c ∈ rest.head?, isBlank c = false) :
    blanks (w ++ rest) = some ((), rest) := Scan.skipWhile_append hw h

theorem isBlank_head {c : Char} (h : isBlank c = false) (rest : List Char) :
    ∀ d ∈ (c :: rest).head?, isBlank d = false := by
  rintro d ⟨⟩
  exact h

theorem blanks_cons {c : Char} (h : isBlank c = false) (rest : List Char) :
    blanks (c :: rest) = some ((), c :: rest) :=
  blanks_append (fun _ hc => absurd hc List.not_mem_nil) (isBlank_head h rest)

/-- What stands behind a value is read up to the place where the value ends. -/
theorem read_end (t : Tree) (hw : Blank w) (h : Closes rest) :
    ((do blanks; return t : Scan Tree)) (w ++ rest) = some (t, rest) := by
  rw [Scan.bind_of_some (blanks_append hw h.not_isBlank)]
  rfl

theorem blanks_dropWhile (cs : List Char) :
    blanks (cs.dropWhile isBlank) = some ((), cs.dropWhile isBlank) := by
  rw [blanks, Scan.skipWhile, List.dropWhile_idempotent]

theorem value_dropBlanks (n : Nat) (cs : List Char) :
    value n (cs.dropWhile isBlank) = value n cs := by
  cases n with
  | zero => rfl
  | succ n =>
    rw [value, Scan.bind_of_some (blanks_dropWhile cs)]
    rfl

theorem memberWith_dropBlanks (p : Scan Tree) (cs : List Char) :
    memberWith p (cs.dropWhile isBlank) = memberWith p cs := by
  rw [memberWith, Scan.bind_of_some (blanks_dropWhile cs)]
  rfl

/-! The first character decides what a value is read as. -/

section

variable {left : List Char} {r : Tree × List Char}

theorem value_of_quoted {s : String} (hs : quoted ('"' :: cs) = some (some s, left))
    (hleft : (do blanks; return .text s : Scan Tree) left = some r) :
    value (n + 1) ('"' :: cs) = some r := by
  rw [value, Scan.bind_of_some (blanks_cons (by decide) cs),
    Scan.bind_of_some (Scan.peek_cons _ cs)]
  change (quoted >>= _) _ = _
  rw [Scan.bind_of_some hs]
  exact hleft

theorem value_of_word {c : Char} (hc : isNumeral c = true ∨ c.isAlpha = true)
    (ht : (if isNumeral c then number else literal) (c :: cs) = some (t, left))
    (hleft : (do blanks; return t : Scan Tree) left = some r) :
    value (n + 1) (c :: cs) = some r := by
  have hother {d : Char} (hd : isNumeral d = false ∧ d.isAlpha = false) : c ≠ d := by
    rintro rfl
    simp [hd.1, hd.2] at hc
  have hblank : isBlank c = false := by
    have hspace : c ≠ ' ' := hother ⟨rfl, rfl⟩
    have htab : c ≠ '\t' := hother ⟨rfl, rfl⟩
    have hline : c ≠ '\n' := hother ⟨rfl, rfl⟩
    have hreturn : c ≠ '\r' := hother ⟨rfl, rfl⟩
    simp [isBlank, hspace, htab, hline, hreturn]
  rw [value, Scan.bind_of_some (blanks_cons hblank cs), Scan.bind_of_some (Scan.peek_cons c cs)]
  generalize ho : some c = o
  split
  · exact absurd (Option.some.inj ho) (hother ⟨rfl, rfl⟩)
  · exact absurd (Option.some.inj ho) (hother ⟨rfl, rfl⟩)
  · exact absurd (Option.some.inj ho) (hother ⟨rfl, rfl⟩)
  · obtain rfl := Option.some.inj ho
    split_ifs at ht ⊢
    · rw [Scan.bind_of_some ht]
      exact hleft
    · rw [Scan.bind_of_some ht]
      exact hleft
  · contradiction

theorem value_of_emptyList (hcs : cs.dropWhile isBlank = ']' :: left)
    (hleft : (do blanks; return .list [] : Scan Tree) left = some r) :
    value (n + 1) ('[' :: cs) = some r := by
  rw [value, Scan.bind_of_some (blanks_cons (by decide) cs),
    Scan.bind_of_some (Scan.peek_cons _ cs)]
  change (Scan.char '[' >>= _) _ = _
  rw [Scan.bind_of_some (Scan.char_cons _ cs)]
  rw [Scan.bind_of_some (show blanks cs = some ((), ']' :: left) from hcs ▸ rfl),
    Scan.bind_of_some (Scan.peek_cons _ left)]
  change (Scan.char ']' >>= _) _ = _
  rw [Scan.bind_of_some (Scan.char_cons _ left)]
  exact hleft

theorem value_of_list {items : List Tree} (hcs : (cs.dropWhile isBlank).head? ≠ some ']')
    (hitems : Scan.sepBy1 (value n) (Scan.char ',') cs = some (items, ']' :: left))
    (hleft : (do blanks; return .list items : Scan Tree) left = some r) :
    value (n + 1) ('[' :: cs) = some r := by
  rw [← Scan.sepBy1_congr (value_dropBlanks n cs)] at hitems
  rw [value, Scan.bind_of_some (blanks_cons (by decide) cs),
    Scan.bind_of_some (Scan.peek_cons _ cs)]
  change (Scan.char '[' >>= _) _ = _
  rw [Scan.bind_of_some (Scan.char_cons _ cs)]
  rw [Scan.bind_of_some (show blanks cs = some ((), cs.dropWhile isBlank) from rfl)]
  change (if ((cs.dropWhile isBlank).head? == some ']') = true then _ else _ : Scan Tree) _ = _
  rw [if_neg (by simpa using hcs), Scan.bind_of_some hitems,
    Scan.bind_of_some (Scan.char_cons _ left)]
  exact hleft

theorem value_of_emptyRecord (hcs : cs.dropWhile isBlank = '}' :: left)
    (hleft : (do blanks; return .record [] : Scan Tree) left = some r) :
    value (n + 1) ('{' :: cs) = some r := by
  rw [value, Scan.bind_of_some (blanks_cons (by decide) cs),
    Scan.bind_of_some (Scan.peek_cons _ cs)]
  change (Scan.char '{' >>= _) _ = _
  rw [Scan.bind_of_some (Scan.char_cons _ cs)]
  rw [Scan.bind_of_some (show blanks cs = some ((), '}' :: left) from hcs ▸ rfl),
    Scan.bind_of_some (Scan.peek_cons _ left)]
  change (Scan.char '}' >>= _) _ = _
  rw [Scan.bind_of_some (Scan.char_cons _ left)]
  exact hleft

theorem value_of_record {members : List (Option String × Tree)}
    (hcs : (cs.dropWhile isBlank).head? ≠ some '}')
    (hmembers :
      Scan.sepBy1 (memberWith (value n)) (Scan.char ',') cs = some (members, '}' :: left))
    (hleft : (do blanks; return recordOf members : Scan Tree) left = some r) :
    value (n + 1) ('{' :: cs) = some r := by
  rw [← Scan.sepBy1_congr (memberWith_dropBlanks (value n) cs)] at hmembers
  rw [value, Scan.bind_of_some (blanks_cons (by decide) cs),
    Scan.bind_of_some (Scan.peek_cons _ cs)]
  change (Scan.char '{' >>= _) _ = _
  rw [Scan.bind_of_some (Scan.char_cons _ cs)]
  rw [Scan.bind_of_some (show blanks cs = some ((), cs.dropWhile isBlank) from rfl)]
  change (if ((cs.dropWhile isBlank).head? == some '}') = true then _ else _ : Scan Tree) _ = _
  rw [if_neg (by simpa using hcs), Scan.bind_of_some hmembers,
    Scan.bind_of_some (Scan.char_cons _ left)]
  exact hleft

end

/-- No item of a list stands where the list ends. -/
theorem value_bracket (n : Nat) (cs : List Char) : value n (']' :: cs) = none := by
  cases n <;> rfl

/-- No member of a record stands where the record ends. -/
theorem memberWith_brace (p : Scan Tree) (cs : List Char) : memberWith p ('}' :: cs) = none := rfl

theorem recordOf_named (members : List (String × Tree)) :
    recordOf (members.map fun m => (some m.1, m.2)) = .record members := by
  have hnames : (members.map fun m => (some m.1, m.2)).mapM
      (fun m : Option String × Tree => m.1.map fun n => (n, m.2)) = some members := by
    induction members with
    | nil => rfl
    | cons m members ih => simp [ih]
  rw [recordOf, hnames]

/-- A scanner reads each text of an item that is short enough, up to where the item ends. -/
def Reads (p : Scan α) (P : List Char → α → Prop) (bound : Nat) : Prop :=
  ∀ cs a rest, P cs a → cs.length < bound → Closes rest → p (cs ++ rest) = some (a, rest)

theorem dropWhile_end {c : Char} (hw : Blank w) (hc : isBlank c = false) (rest : List Char) :
    (w ++ [c] ++ rest).dropWhile isBlank = c :: rest := by
  rw [List.append_assoc, List.dropWhile_append_of_pos hw, List.cons_append, List.nil_append,
    List.dropWhile_cons_of_neg (by simp [hc])]

/-- The items up to the end of a list or record, which does not stand right at the beginning. -/
theorem sepBy1_read {p : Scan α} {as : List α} {c : Char}
    (hp : ∀ cs, p (cs.dropWhile isBlank) = p cs) (hnone : ∀ cs, p (c :: cs) = none)
    (hc : c = ']' ∨ c = '}') (h : Scan.Rows ',' P ds as) {bound : Nat} (hread : Reads p P bound)
    (hbound : ds.length < bound) (rest : List Char) :
    Scan.sepBy1 p (Scan.char ',') (ds ++ [c] ++ rest) = some (as, c :: rest) ∧
      ((ds ++ [c] ++ rest).dropWhile isBlank).head? ≠ some c := by
  have hcloses : Closes (c :: rest) := closes_cons (.inr hc) rest
  have hcomma : ∀ d ∈ (c :: rest).head?, d ≠ ',' := by
    rintro d ⟨⟩
    obtain rfl | rfl := hc <;> decide
  have hitems : Scan.sepBy1 p (Scan.char ',') (ds ++ [c] ++ rest) = some (as, c :: rest) := by
    have hshort : ∀ cs a rest, P cs a → cs.length ≤ ds.length → Closes rest →
        p (cs ++ rest) = some (a, rest) := fun cs a rest ha hlen =>
      hread cs a rest ha (Nat.lt_of_le_of_lt hlen hbound)
    rw [List.append_assoc]
    exact Scan.sepBy1_rows h hshort (closes_cons (.inl rfl)) hcloses hcomma
  refine ⟨hitems, fun hhead => ?_⟩
  -- an item cannot be read at the closing bracket
  obtain ⟨more, hmore⟩ := List.head?_eq_some_iff.1 hhead
  have hnoItem : p (ds ++ [c] ++ rest) = none := by rw [← hp, hmore, hnone]
  rw [Scan.sepBy1, Scan.bind_of_none hnoItem] at hitems
  contradiction

theorem reads_memberWith {p : Scan Tree} {P : List Char → Tree → Prop} {bound : Nat}
    (h : Reads p P bound) :
    Reads (memberWith p) (fun cs m => ∃ m', Member P cs m' ∧ (some m'.1, m'.2) = m) bound := by
  rintro _ _ rest ⟨_, ⟨hw, hw', hcs⟩, rfl⟩ hlen hrest
  rename_i w w' cs name t
  have hvalue : p (cs ++ rest) = some (t, rest) := by
    refine h cs t rest hcs ?_ hrest
    simp only [List.length_append, List.length_cons] at hlen
    omega
  have hname : ∀ c ∈ (quote name ++ (w' ++ ':' :: cs) ++ rest).head?, isBlank c = false :=
    isBlank_head rfl _
  rw [memberWith, List.append_assoc, Scan.bind_of_some (blanks_append hw hname),
    List.append_assoc, Scan.bind_of_some (quoted_quote name _), List.append_assoc,
    List.cons_append, Scan.bind_of_some (blanks_append hw' (isBlank_head rfl _)),
    Scan.bind_of_some (Scan.char_cons _ _), Scan.bind_of_some hvalue]
  rfl

theorem length_lt_of_brackets {c d : Char} (h : (c :: (ds ++ [d])).length ≤ n) : ds.length < n := by
  simp only [List.length_cons, List.length_append, List.length_nil] at h
  omega

/-- One level of nesting: what stands inside a text is short enough to be read. -/
theorem Spells.read_body (ih : Reads (value n) (Padded Spells) n) (h : Spells cs t)
    (hlen : cs.length ≤ n) (hw : Blank w) (hrest : Closes rest) :
    value (n + 1) (cs ++ (w ++ rest)) = some (t, rest) := by
  have hend (t : Tree) := read_end t hw hrest
  have hword := ends_append hw hrest
  cases h with
  | null =>
    exact value_of_word (.inr rfl) (literal_leaf (.inl rfl) fun c hc => (hword c hc).2) (hend _)
  | bool b =>
    have hread := literal_leaf (.inr ⟨b, rfl⟩) fun c hc => (hword c hc).2
    cases b
    · exact value_of_word (.inr rfl) hread (hend _)
    · exact value_of_word (.inr rfl) hread (hend _)
  | int k =>
    have hread := number_toString k fun c hc => (hword c hc).1
    obtain ⟨c, ds, hcs, hc⟩ := exists_numeral_toString k
    rw [hcs, List.cons_append] at hread
    rw [leaf, hcs, List.cons_append]
    exact value_of_word (.inl hc) (by rwa [if_pos hc]) (hend _)
  | text s => exact value_of_quoted (quoted_quote s _) (hend _)
  | emptyList hblank => exact value_of_emptyList (dropWhile_end hblank rfl _) (hend _)
  | @list ds items hrows =>
    obtain ⟨hitems, hopen⟩ := sepBy1_read (value_dropBlanks n) (value_bracket n) (.inl rfl) hrows
      ih (length_lt_of_brackets hlen) (w ++ rest)
    exact value_of_list hopen hitems (hend _)
  | emptyRecord hblank => exact value_of_emptyRecord (dropWhile_end hblank rfl _) (hend _)
  | @record ds members hrows =>
    obtain ⟨hmembers, hopen⟩ := sepBy1_read (memberWith_dropBlanks (value n))
      (memberWith_brace (value n)) (.inr rfl) (hrows.map fun m => (some m.1, m.2))
      (reads_memberWith ih) (length_lt_of_brackets hlen) (w ++ rest)
    refine value_of_record hopen hmembers ?_
    rw [recordOf_named]
    exact hend _

theorem reads_value (n : Nat) : Reads (value n) (Padded Spells) n := by
  induction n with
  | zero => exact fun cs a rest ha hlen => absurd hlen (Nat.not_lt_zero _)
  | succ n ih =>
    -- the blanks in front belong to the value, those behind it to its end
    rintro _ t rest ⟨hw, hcs, hw'⟩ hlen hrest
    rename_i w cs w'
    have hcs' : cs.length ≤ n := by
      simp only [List.length_append] at hlen
      omega
    have hdrop : (w ++ (cs ++ w') ++ rest).dropWhile isBlank =
        (cs ++ (w' ++ rest)).dropWhile isBlank := by
      rw [List.append_assoc, List.dropWhile_append_of_pos hw, List.append_assoc]
    rw [← value_dropBlanks, hdrop, value_dropBlanks]
    exact hcs.read_body ih hcs' hw' hrest

/-- A text of a tree is read as this tree. -/
theorem parse?_of_spells {text : String} (h : Padded Spells text.toList t) :
    parse? text = some t := by
  have hlen : text.toList.length < text.length + 1 := by
    rw [String.length_toList]
    exact Nat.lt_succ_self _
  have hread := reads_value (text.length + 1) text.toList t [] h hlen (by rintro c ⟨⟩)
  rw [List.append_nil] at hread
  rw [parse?, Scan.run?, hread]

/-! ### Writing -/

theorem blank_nil : Blank [] := fun _ hc => absurd hc List.not_mem_nil

theorem blank_space : Blank [' '] := by simp [Blank, isBlank]

theorem blank_newLine (level : Nat) : Blank (newLine level) := by
  intro c hc
  obtain rfl | hc := List.mem_cons.1 hc
  · rfl
  · rw [(List.mem_replicate.1 hc).2]
    rfl

/-- Items that are written one after the other, with commas and blanks between them, form a row. -/
theorem rows_of_steps (write : α → List Char) (writeAll : List α → List Char) (gap : List Char)
    (hone : ∀ a, writeAll [a] = write a)
    (hmore : ∀ a b as, writeAll (a :: b :: as) = write a ++ ',' :: gap ++ writeAll (b :: as))
    (hgap : Blank gap) {as : List α} (hne : as ≠ [])
    (hwrite : ∀ a ∈ as, ∀ w w', Blank w → Blank w' → P (w ++ (write a ++ w')) a)
    (hw : Blank w) (hw' : Blank w') : Scan.Rows ',' P (w ++ (writeAll as ++ w')) as := by
  induction as generalizing w with
  | nil => contradiction
  | cons a as ih =>
    cases as with
    | nil =>
      rw [hone]
      exact .one (hwrite a List.mem_cons_self w w' hw hw')
    | cons b as =>
      have hfirst := hwrite a List.mem_cons_self w [] hw blank_nil
      have hothers := ih (List.cons_ne_nil b as)
        (fun a ha => hwrite a (List.mem_cons_of_mem _ ha)) hgap
      have htext : w ++ (writeAll (a :: b :: as) ++ w') =
          w ++ (write a ++ []) ++ ',' :: (gap ++ (writeAll (b :: as) ++ w')) := by
        rw [hmore]
        simp only [List.append_assoc, List.cons_append, List.append_nil]
      rw [htext]
      exact .more hfirst hothers

/-- A member is written as its name, a colon and its value, with blanks in front of the value. -/
theorem member_of_spells {name : String} {gap : List Char} (h : Spells cs t) (hgap : Blank gap)
    (hw : Blank w) (hw' : Blank w') :
    Member (Padded Spells) (w ++ (quote name ++ ':' :: gap ++ cs ++ w')) (name, t) := by
  have htext : w ++ (quote name ++ ':' :: gap ++ cs ++ w') =
      w ++ (quote name ++ ([] ++ ':' :: (gap ++ (cs ++ w')))) := by
    simp only [List.append_assoc, List.cons_append, List.nil_append]
  rw [htext]
  exact .mk hw blank_nil (.mk hgap h hw')

theorem spells_write (h : t.Plain) : Spells (write t) t := by
  induction h with
  | null => exact .null
  | bool b => exact .bool b
  | int n => exact .int n
  | text s => exact .text s
  | @list items _ ih =>
    cases items with
    | nil => exact .emptyList blank_nil
    | cons t items =>
      have hrows : Scan.Rows ',' (Padded Spells) ([] ++ (writeItems (t :: items) ++ []))
          (t :: items) := by
        refine rows_of_steps write writeItems [] (fun _ => rfl) (fun a b as => ?_) blank_nil
          (List.cons_ne_nil _ _) ?_ blank_nil blank_nil
        · simp [writeItems]
        · exact fun a ha w w' hw hw' => .mk hw (ih a ha) hw'
      rw [List.nil_append, List.append_nil] at hrows
      exact .list hrows
  | @record members _ ih =>
    cases members with
    | nil => exact .emptyRecord blank_nil
    | cons m members =>
      have hrows : Scan.Rows ',' (Member (Padded Spells))
          ([] ++ (writeMembers (m :: members) ++ [])) (m :: members) := by
        refine rows_of_steps (fun m => quote m.1 ++ ':' :: [] ++ write m.2) writeMembers []
          (fun _ => ?_) (fun a b as => ?_) blank_nil (List.cons_ne_nil _ _) ?_ blank_nil blank_nil
        · simp [writeMembers]
        · simp [writeMembers]
        · exact fun a ha w w' hw hw' => member_of_spells (ih a ha) blank_nil hw hw'
      rw [List.nil_append, List.append_nil] at hrows
      exact .record hrows

theorem spells_writePretty (h : t.Plain) (level : Nat) : Spells (writePretty level t) t := by
  induction h generalizing level with
  | null => exact .null
  | bool b => exact .bool b
  | int n => exact .int n
  | text s => exact .text s
  | @list items _ ih =>
    cases items with
    | nil => exact .emptyList blank_nil
    | cons t items =>
      have hrows : Scan.Rows ',' (Padded Spells)
          (newLine (level + 1) ++ (prettyItems (level + 1) (t :: items) ++ newLine level))
          (t :: items) := by
        refine rows_of_steps (writePretty (level + 1)) (prettyItems (level + 1))
          (newLine (level + 1)) (fun _ => rfl) (fun a b as => rfl) (blank_newLine _)
          (List.cons_ne_nil _ _) ?_ (blank_newLine _) (blank_newLine _)
        exact fun a ha w w' hw hw' => .mk hw (ih a ha _) hw'
      rw [← List.append_assoc] at hrows
      exact .list hrows
  | @record members _ ih =>
    cases members with
    | nil => exact .emptyRecord blank_nil
    | cons m members =>
      have hrows : Scan.Rows ',' (Member (Padded Spells))
          (newLine (level + 1) ++ (prettyMembers (level + 1) (m :: members) ++ newLine level))
          (m :: members) := by
        refine rows_of_steps (fun m => quote m.1 ++ ':' :: [' '] ++ writePretty (level + 1) m.2)
          (prettyMembers (level + 1)) (newLine (level + 1)) (fun _ => rfl) (fun a b as => rfl)
          (blank_newLine _) (List.cons_ne_nil _ _) ?_ (blank_newLine _) (blank_newLine _)
        exact fun a ha w w' hw hw' => member_of_spells (ih a ha _) blank_space hw hw'
      rw [← List.append_assoc] at hrows
      exact .record hrows

/-- What is written for a tree, in one line or in several, is among its texts. -/
theorem spells_render (h : t.Plain) :
    Padded Spells (render t).toList t ∧ Padded Spells (renderPretty t).toList t := by
  have hpadded {cs : List Char} (hcs : Spells cs t) : Padded Spells cs t := by
    have hblanks : Padded Spells ([] ++ (cs ++ [])) t := .mk blank_nil hcs blank_nil
    rwa [List.nil_append, List.append_nil] at hblanks
  constructor
  · rw [render, String.toList_ofList]
    exact hpadded (spells_write h)
  · rw [renderPretty, String.toList_ofList]
    exact hpadded (spells_writePretty h 0)

end Json

end PadRouter

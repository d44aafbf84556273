import PadRouter.Proofs.Toml.Values

/-!
# Reading back the lines of a TOML document

* `Toml.key_rows` — the names of a key, before a value or in a header.
* `Toml.Line.write`, `Toml.line_write` — a line is read back.
* `Toml.blockLines` — the lines of some sections.
* `Toml.document_blocks` — the text of some sections is read as these sections.
-/

namespace PadRouter.Toml

variable {cs rest : List Char} {c : Char}

/-! ### Keys -/

theorem head_writeName (s : String) :
    ∃ c cs, writeName s = c :: cs ∧ (isBare c = true ∨ c = '"') := by
  unfold writeName
  split_ifs with h
  · simp only [Bool.and_eq_true, List.all_eq_true] at h
    obtain ⟨c, cs, hcs⟩ := List.exists_cons_of_ne_nil (show s.toList ≠ [] by simpa using h.1)
    exact ⟨c, cs, hcs, .inl (h.2 c (hcs ▸ List.mem_cons_self))⟩
  · exact ⟨'"', _, rfl, .inr rfl⟩

theorem not_isBlank_of_bare (h : isBare c = true ∨ c = '"') : isBlank c = false := by
  rw [isBlank, Bool.or_eq_false_iff, beq_eq_false_iff_ne, beq_eq_false_iff_ne]
  constructor <;> rintro rfl <;> exact absurd h (by decide)

theorem blanks_of_head (h : ∀ c ∈ cs.head?, isBlank c = false) : blanks cs = some ((), cs) :=
  Scan.skipWhile_append (List.forall_mem_nil _) h

theorem blanks_append (hall : ∀ c ∈ cs, isBlank c = true)
    (hrest : ∀ c ∈ rest.head?, isBlank c = false) : blanks (cs ++ rest) = some ((), rest) :=
  Scan.skipWhile_append hall hrest

theorem blanks_writeName (s : String) (rest : List Char) :
    blanks (writeName s ++ rest) = some ((), writeName s ++ rest) := by
  obtain ⟨c, cs, hcs, hc⟩ := head_writeName s
  refine blanks_of_head ?_
  rw [hcs]
  simpa using not_isBlank_of_bare hc

/-- One name of a key, with the blanks around it. -/
def keyName : Scan String := do
  blanks
  let n ← name
  blanks
  return n

/-- How a name is written in a key. -/
def KeyText (cs : List Char) (s : String) : Prop :=
  ∃ more, cs = writeName s ++ more ∧ ∀ c ∈ more, isBlank c = true

/-- What may stand behind a key without changing it. -/
def EndsKey (rest : List Char) : Prop := ∀ c ∈ rest.head?, isBare c = false ∧ isBlank c = false

theorem endsKey_cons (hc : isBare c = false ∧ isBlank c = false) (rest : List Char) :
    EndsKey (c :: rest) := by
  intro d hd
  obtain rfl : c = d := by simpa using hd
  exact hc

theorem keyName_read {s : String} (h : KeyText cs s) (hrest : EndsKey rest) :
    keyName (cs ++ rest) = some (s, rest) := by
  obtain ⟨more, rfl, hmore⟩ := h
  have hbare : ∀ c ∈ (more ++ rest).head?, isBare c = false := by
    intro c hc
    cases more with
    | nil => exact (hrest c hc).1
    | cons d more =>
      obtain rfl : d = c := by simpa using hc
      have hd := hmore d List.mem_cons_self
      by_contra hbare
      rw [not_isBlank_of_bare (.inl (by simpa using hbare))] at hd
      contradiction
  unfold keyName
  rw [List.append_assoc, Scan.bind_of_some (blanks_writeName s _),
    Scan.bind_of_some (name_writeName s hbare),
    Scan.bind_of_some (blanks_append hmore fun c hc => (hrest c hc).2)]
  rfl

theorem key_rows {path : List String} (h : Scan.Rows '.' KeyText cs path)
    (hpath : path.length ≤ maxDepth) (hrest : EndsKey rest) (hdot : ∀ c ∈ rest.head?, c ≠ '.') :
    key (cs ++ rest) = some (path, rest) := by
  have hread (ds : List Char) (s : String) (more : List Char) (hds : KeyText ds s)
      (_ : ds.length ≤ cs.length) (hmore : EndsKey more) :
      keyName (ds ++ more) = some (s, more) := keyName_read hds hmore
  have hrow := Scan.sepBy1_rows h hread (endsKey_cons (by decide)) hrest hdot
  refine (Scan.bind_of_some hrow).trans ?_
  rw [if_pos hpath]
  rfl

theorem rows_writePath {path : List String} (h : path ≠ []) :
    Scan.Rows '.' KeyText (writePath path) path := by
  induction path with
  | nil => contradiction
  | cons s path ih =>
    have hs : KeyText (writeName s) s := ⟨[], by simp, by simp⟩
    cases path with
    | nil => simpa [writePath, List.intercalate] using Scan.Rows.one hs
    | cons s' path =>
      have hrows := Scan.Rows.more hs (ih (List.cons_ne_nil _ _))
      simpa [writePath, List.intercalate] using hrows

/-! ### Lines -/

/-- The text of a line. -/
def Line.write : Line → List Char
  | .blank => ['\n']
  | .pair p => writeName p.name ++ [' ', '=', ' '] ++ writeValue p.value ++ ['\n']
  | .header true path => ['[', '['] ++ writePath path ++ [']', ']', '\n']
  | .header false path => ['['] ++ writePath path ++ [']', '\n']

/-- A line as sections have it: without dotted keys, with a value on one line, and with a path that
is not too long. -/
def Line.Sound : Line → Prop
  | .blank => True
  | .pair p => p.path = [] ∧ Inline p.value
  | .header _ path => path ≠ [] ∧ path.length ≤ maxDepth

theorem lineEnd_newLine (rest : List Char) : lineEnd ('\n' :: rest) = some ((), rest) := rfl

theorem head_writePath {path : List String} (h : path ≠ []) :
    ∃ c cs, writePath path = c :: cs ∧ (isBare c = true ∨ c = '"') := by
  obtain ⟨s, path, rfl⟩ := List.exists_cons_of_ne_nil h
  obtain ⟨c, cs, hcs, hc⟩ := head_writeName s
  cases path with
  | nil => exact ⟨c, cs, by simp [writePath, List.intercalate, hcs], hc⟩
  | cons s' path => exact ⟨c, _, by simp [writePath, List.intercalate, hcs]; rfl, hc⟩

theorem head_writeValue {t : Tree} (h : Inline t) :
    ∃ c cs, writeValue t = c :: cs ∧ isBlank c = false := by
  cases h with
  | text s =>
    rw [writeValue, writeText]
    cases TextForm.choose s.toList <;> exact ⟨_, _, rfl, by decide⟩
  | word h =>
    obtain ⟨c, cs, hcs, hc⟩ := h.head
    refine ⟨c, cs, hcs, ?_⟩
    rw [isBlank, Bool.or_eq_false_iff, beq_eq_false_iff_ne, beq_eq_false_iff_ne]
    constructor <;> rintro rfl <;> exact absurd hc (by decide)
  | empty => exact ⟨'[', _, rfl, by decide⟩

theorem pairWith_write (s : String) {t : Tree} (h : Inline t) (rest : List Char) (depth : Nat) :
    pairWith (value (depth + 1))
        (writeName s ++ ([' ', '=', ' '] ++ (writeValue t ++ '\n' :: rest))) =
      some (⟨[], s, t⟩, '\n' :: rest) := by
  have hspace : ∀ c ∈ [' '], isBlank c = true := List.all_eq_true.1 rfl
  have hrow : Scan.Rows '.' KeyText (writeName s ++ [' ']) [s] := .one ⟨[' '], rfl, hspace⟩
  have hlength : [s].length ≤ maxDepth := by simp [maxDepth]
  have hkey (more : List Char) :
      key (writeName s ++ [' '] ++ '=' :: more) = some ([s], '=' :: more) :=
    key_rows hrow hlength (endsKey_cons (by decide) more) (by simp)
  have hblanks : blanks (' ' :: (writeValue t ++ '\n' :: rest)) =
      some ((), writeValue t ++ '\n' :: rest) := by
    obtain ⟨c, cs, hcs, hc⟩ := head_writeValue h
    refine blanks_append hspace ?_
    rw [hcs]
    simpa using hc
  have hvalue : value (depth + 1) (writeValue t ++ '\n' :: rest) = some (t, '\n' :: rest) := by
    refine value_writeValue h (fun c hc => ?_) depth
    obtain rfl : '\n' = c := by simpa using hc
    decide
  have hassoc (more : List Char) :
      writeName s ++ ([' ', '=', ' '] ++ more) = writeName s ++ [' '] ++ '=' :: ' ' :: more := by
    simp
  unfold pairWith
  rw [hassoc, Scan.bind_of_some (hkey _), Scan.bind_of_some (Scan.char_cons _ _),
    Scan.bind_of_some hblanks, Scan.bind_of_some hvalue]
  rfl

theorem header_of_ne (h : c ≠ '[') : header (c :: cs) = none := by
  have hword : Scan.word ['[', '['] (c :: cs) = none := Scan.bind_of_none (Scan.char_of_ne h)
  exact (Scan.orElse_of_none (Scan.bind_of_none hword)).trans
    (Scan.bind_of_none (Scan.char_of_ne h))

theorem header_write (array : Bool) {path : List String} (hne : path ≠ [])
    (hpath : path.length ≤ maxDepth) (rest : List Char) :
    header ((Line.header array path).write ++ rest) =
      some (.header array path, '\n' :: rest) := by
  have hkey (more : List Char) : key (writePath path ++ ']' :: more) = some (path, ']' :: more) :=
    key_rows (rows_writePath hne) hpath (endsKey_cons (by decide) more) (by simp)
  cases array with
  | true =>
    have hopening (more : List Char) :
        Scan.word ['[', '['] ('[' :: '[' :: more) = some ((), more) :=
      Scan.word_append ['[', '['] more
    refine Scan.orElse_of_some ?_
    simp only [Line.write, List.append_assoc, List.cons_append, List.nil_append]
    rw [Scan.bind_of_some (hopening _), Scan.bind_of_some (hkey _)]
    rfl
  | false =>
    obtain ⟨c, cs, hcs, hc⟩ := head_writePath hne
    have hopening (more : List Char) :
        Scan.word ['[', '['] ('[' :: (writePath path ++ more)) = none := by
      rw [Scan.word, Scan.bind_of_some (Scan.char_cons _ _), hcs]
      refine Scan.bind_of_none (Scan.char_of_ne ?_)
      rintro rfl
      exact absurd hc (by decide)
    simp only [Line.write, List.append_assoc, List.cons_append, List.nil_append]
    refine (Scan.orElse_of_none (Scan.bind_of_none (hopening _))).trans ?_
    rw [Scan.bind_of_some (Scan.char_cons _ _), Scan.bind_of_some (hkey _)]
    rfl

theorem line_of_head {l : Line} (hblank : isBlank c = false)
    (h : (header <|> (Line.pair <$> pairWith (value maxDepth)) <|> pure .blank) (c :: cs) =
      some (l, '\n' :: rest)) : line (c :: cs) = some (l, rest) := by
  have hblanks : blanks (c :: cs) = some ((), c :: cs) := blanks_of_head (by simpa using hblank)
  unfold line
  rw [Scan.bind_of_some (Scan.peek_cons c cs)]
  refine (Scan.bind_of_some hblanks).trans ?_
  rw [Scan.bind_of_some h, Scan.bind_of_some (lineEnd_newLine rest)]
  rfl

/-- A line is read back. -/
theorem line_write {l : Line} (h : l.Sound) (rest : List Char) :
    line (l.write ++ rest) = some (l, rest) := by
  cases l with
  | blank =>
    refine line_of_head (by decide) ?_
    rfl
  | pair p =>
    obtain ⟨path, s, t⟩ := p
    obtain ⟨rfl, ht⟩ := h
    obtain ⟨c, cs, hcs, hc⟩ := head_writeName s
    have hbracket : c ≠ '[' := by
      rintro rfl
      exact absurd hc (by decide)
    have hpair := Scan.map_of_some (g := Line.pair) (pairWith_write s ht rest 78)
    simp only [Line.write, List.append_assoc, List.cons_append, List.nil_append] at hpair ⊢
    rw [hcs, List.cons_append] at hpair ⊢
    refine line_of_head (not_isBlank_of_bare hc) ?_
    rw [Scan.orElse_of_none (header_of_ne hbracket)]
    exact Scan.orElse_of_some hpair
  | header array path =>
    have hheader := header_write array h.1 h.2 rest
    have hhead : ∃ cs, (Line.header array path).write = '[' :: cs := by
      cases array <;> exact ⟨_, rfl⟩
    obtain ⟨cs, hcs⟩ := hhead
    rw [hcs, List.cons_append] at hheader ⊢
    exact line_of_head (by decide) (Scan.orElse_of_some hheader)

/-- A line is not empty, and it does not begin with a byte order mark. -/
theorem head_write {l : Line} : ∃ c cs, l.write = c :: cs ∧ c ≠ '\uFEFF' := by
  cases l with
  | blank => exact ⟨'\n', [], rfl, by decide⟩
  | pair p =>
    obtain ⟨c, cs, hcs, hc⟩ := head_writeName p.name
    refine ⟨c, _, by simp [Line.write, hcs]; rfl, ?_⟩
    rintro rfl
    exact absurd hc (by decide)
  | header array path => cases array <;> exact ⟨'[', _, rfl, by decide⟩

/-- Lines are read one after the other. -/
theorem series_lines {ls : List Line} (h : ∀ l ∈ ls, l.Sound) :
    Scan.Series line (ls.flatMap Line.write) ls [] := by
  induction ls with
  | nil => exact .stop rfl
  | cons l ls ih =>
    obtain ⟨hl, hls⟩ := List.forall_mem_cons.1 h
    obtain ⟨c, cs, hcs, -⟩ := head_write (l := l)
    rw [List.flatMap_cons]
    refine .step (line_write hl _) ?_ (ih hls)
    rw [hcs, List.cons_append, List.length_cons, List.length_append]
    omega

theorem document_lines {ls : List Line} (h : ∀ l ∈ ls, l.Sound) :
    document.run? (String.ofList (ls.flatMap Line.write)) = some (collect ls.reverse [] []) := by
  have hmark : Scan.char '\uFEFF' (ls.flatMap Line.write) = none := by
    cases ls with
    | nil => rfl
    | cons l ls =>
      obtain ⟨c, cs, hcs, hc⟩ := head_write (l := l)
      rw [List.flatMap_cons, hcs]
      exact Scan.char_of_ne hc
  have hread : document (ls.flatMap Line.write) = some (collect ls.reverse [] [], []) := by
    unfold document
    rw [Scan.bind_of_some (Scan.optional_of_none hmark),
      Scan.bind_of_some (Scan.many_of_series (series_lines h))]
    rfl
  rw [Scan.run?, String.toList_ofList, hread]

/-! ### Sections -/

namespace Block

/-- The values of a section as pairs. -/
def pairs (b : Block) : List Pair := b.values.map fun m => ⟨[], m.1, m.2⟩

/-- A section as it is read. -/
def toSection (b : Block) : Section := ⟨b.array, b.path, b.pairs⟩

/-- The lines of a section. -/
def lines (b : Block) : List Line :=
  (if b.path.isEmpty then [] else [.header b.array b.path]) ++ b.pairs.map .pair

theorem flatMap_lines (b : Block) : b.lines.flatMap Line.write = b.write := by
  rw [lines, write, List.flatMap_append, pairs, List.map_map, List.flatMap_map]
  congr 1
  split_ifs with hpath harray
  · rfl
  · simp [Line.write, harray]
  · simp [Line.write, harray]

/-- A section with a path that is not too long and with values on one line. -/
structure Sound (b : Block) : Prop where
  path : b.path.length ≤ maxDepth
  values : ∀ m ∈ b.values, Inline m.2

theorem Sound.lines {b : Block} (h : b.Sound) : ∀ l ∈ b.lines, l.Sound := by
  intro l hl
  obtain hheader | hpair := List.mem_append.1 hl
  · split_ifs at hheader with hpath
    · contradiction
    · obtain rfl := List.mem_singleton.1 hheader
      exact ⟨by simpa using hpath, h.path⟩
  · obtain ⟨p, hp, rfl⟩ := List.mem_map.1 hpair
    obtain ⟨m, hm, rfl⟩ := List.mem_map.1 hp
    exact ⟨rfl, h.values m hm⟩

end Block

/-- The lines of some sections, with an empty line between any two. -/
def blockLines : List Block → List Line
  | [] => []
  | [b] => b.lines
  | b :: bs => b.lines ++ .blank :: blockLines bs

theorem flatMap_blockLines (bs : List Block) :
    (blockLines bs).flatMap Line.write = ['\n'].intercalate (bs.map Block.write) := by
  induction bs with
  | nil => rfl
  | cons b bs ih =>
    cases bs with
    | nil => simp [blockLines, Block.flatMap_lines, List.intercalate]
    | cons b' bs =>
      have hblank : Line.blank.write = ['\n'] := rfl
      rw [blockLines, List.flatMap_append, List.flatMap_cons, ih, Block.flatMap_lines, hblank]
      · simp [List.intercalate]
      · simp

theorem blockLines_sound {bs : List Block} (h : ∀ b ∈ bs, b.Sound) :
    ∀ l ∈ blockLines bs, l.Sound := by
  induction bs with
  | nil => simp [blockLines]
  | cons b bs ih =>
    obtain ⟨hb, hbs⟩ := List.forall_mem_cons.1 h
    cases bs with
    | nil => exact hb.lines
    | cons b' bs =>
      intro l hl
      obtain hl | hl := List.mem_append.1 hl
      · exact hb.lines l hl
      · obtain rfl | hl := List.mem_cons.1 hl
        · trivial
        · exact ih hbs l hl

/-- Lines are collected from the last one on, and so are the pairs under a header. -/
theorem collect_pairs (ps : List Pair) (ls : List Line) (pairs : List Pair)
    (sections : List Section) :
    collect ((ps.map Line.pair).reverse ++ ls) pairs sections =
      collect ls (ps ++ pairs) sections := by
  induction ps generalizing ls with
  | nil => rfl
  | cons p ps ih =>
    rw [List.map_cons, List.reverse_cons, List.append_assoc, ih]
    rfl

variable {bs : List Block}

theorem collect_block {b : Block} (h : b.path ≠ []) (ls : List Line) (sections : List Section) :
    collect (b.lines.reverse ++ ls) [] sections = collect ls [] (b.toSection :: sections) := by
  rw [Block.lines, if_neg (by simpa using h), List.reverse_append, List.append_assoc,
    collect_pairs, List.append_nil]
  rfl

theorem collect_blocks (h : ∀ b ∈ bs, b.path ≠ []) (ls : List Line) (sections : List Section) :
    collect ((blockLines bs).reverse ++ ls) [] sections =
      collect ls [] (bs.map Block.toSection ++ sections) := by
  induction bs generalizing ls with
  | nil => rfl
  | cons b bs ih =>
    obtain ⟨hb, hbs⟩ := List.forall_mem_cons.1 h
    cases bs with
    | nil => exact collect_block hb ls sections
    | cons b' bs =>
      have hlines : (blockLines (b :: b' :: bs)).reverse ++ ls =
          (blockLines (b' :: bs)).reverse ++ (.blank :: (b.lines.reverse ++ ls)) := by
        simp [blockLines]
      rw [hlines, ih hbs]
      exact collect_block hb ls _

/-- Sections behind the values of the document itself, if it has any, are read as they are. -/
theorem document_blocks {top : Block} (htop : top.Sound) (hpath : top.path = [])
    (h : ∀ b ∈ bs, b.Sound) (hpaths : ∀ b ∈ bs, b.path ≠ []) :
    document.run? (String.ofList (['\n'].intercalate
        (((if top.values.isEmpty then [] else [top]) ++ bs).map Block.write))) =
      some ⟨top.pairs, bs.map Block.toSection⟩ := by
  have hlines : top.lines = top.pairs.map .pair := by simp [Block.lines, hpath]
  rw [← flatMap_blockLines]
  split_ifs with hvalues
  · have hpairs : top.pairs = [] := by simpa [Block.pairs] using hvalues
    have hcollect := collect_blocks hpaths [] []
    rw [List.append_nil] at hcollect
    rw [List.nil_append, document_lines (blockLines_sound h), hcollect, hpairs, List.append_nil]
    rfl
  · rw [document_lines (blockLines_sound (List.forall_mem_append.2 ⟨by simpa using htop, h⟩))]
    cases bs with
    | nil =>
      have hcollect := collect_pairs top.pairs [] [] []
      rw [List.append_nil, ← hlines, List.append_nil] at hcollect
      exact congrArg some hcollect
    | cons b bs =>
      have hcollect := collect_blocks hpaths (.blank :: (top.lines.reverse ++ [])) []
      have htop' := collect_pairs top.pairs [] [] ((b :: bs).map Block.toSection ++ [])
      rw [← hlines] at htop'
      simp only [List.append_nil] at hcollect htop'
      have hreverse : (blockLines ([top] ++ b :: bs)).reverse =
          (blockLines (b :: bs)).reverse ++ (.blank :: top.lines.reverse) := by
        simp [blockLines]
      rw [hreverse, hcollect]
      exact congrArg some htop'

end PadRouter.Toml

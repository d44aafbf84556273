import Mathlib.Data.List.Basic
import Mathlib.Tactic.SplitIfs
import PadRouter.Proofs.Text.Scan
import PadRouter.Toml.Parser
import PadRouter.Toml.Printer

/-!
# Reading back TOML texts

A text is read back from each form that it may be written in.

* `Toml.Spelled` — characters spelled one by one, with no more than so many enclosing characters in
  a row.
* `Toml.spelled_escaped`, `Toml.spelled_self` — with escapes where needed, or without any.
* `Toml.Reads.multiLine` — a text of several lines.
* `Toml.text_writeText` — a text in the form that is chosen for it.
-/

namespace PadRouter.Toml

/-- The spelling of some characters. `P` tells how single characters are spelled; besides, up to
`free` enclosing characters in a row may stand for themselves, of which `run` are in front. -/
inductive Spelled (quote : Char) (free : Nat) (P : List Char → Char → Prop) :
    Nat → List Char → List Char → Prop
  | nil {run : Nat} : Spelled quote free P run [] []
  | quote {run : Nat} {text cs : List Char} : run < free → Spelled quote free P (run + 1) text cs →
      Spelled quote free P run (quote :: text) (quote :: cs)
  | char {run : Nat} {u text cs : List Char} {c : Char} : P u c →
      Spelled quote free P 0 text cs → Spelled quote free P run (u ++ text) (c :: cs)

/-! ### Escapes -/

/-- An escape sequence for a character. What stands behind its backslash does not join lines. -/
def Escapes (u : List Char) (c : Char) : Prop :=
  ∃ e us, u = '\\' :: e :: us ∧ isBlank e = false ∧ e ≠ '\n' ∧ e ≠ '\r' ∧
    ∀ rest, escape (u ++ rest) = some (c, rest)

/-- How a character other than a quote is spelled in quotes. -/
inductive Stands (lines : Bool) : List Char → Char → Prop
  | plain {c : Char} : isPrintable c = true → c ≠ '"' → c ≠ '\\' → Stands lines [c] c
  | escaped {u : List Char} {c : Char} : Escapes u c → Stands lines u c
  | newLine : lines = true → Stands lines ['\n'] '\n'

theorem numbered_hexDigits : ∀ n < 128,
    let ds := (Text.hexDigits 4 n).map Char.toUpper
    ds.length = 4 ∧ ds.all (fun c => (Text.hexValue? c).isSome) = true ∧ valueIn 16 ds = n := by
  decide

theorem lt_of_isControl {c : Char} (h : isControl c = true) : c.toNat < 128 := by
  simp only [isControl, Bool.or_eq_true, Bool.and_eq_true, decide_eq_true_eq, beq_iff_eq] at h
  rcases h with ⟨⟨hlt, -⟩, -⟩ | rfl
  · have : c.toNat < 32 := hlt
    omega
  · decide

theorem isPrintable_of_not_isControl {c : Char} (h : isControl c = false) (hn : c ≠ '\n') :
    isPrintable c = true := by
  simp only [isControl, Bool.or_eq_false_iff, Bool.and_eq_false_iff, decide_eq_false_iff_not,
    bne_eq_false_iff_eq, beq_eq_false_iff_ne] at h
  simp only [isPrintable, Bool.or_eq_true, beq_iff_eq, Bool.and_eq_true, decide_eq_true_eq,
    bne_iff_ne]
  rcases h with ⟨(hle | htab) | hline, hdel⟩
  · exact .inr ⟨Char.not_lt.1 hle, hdel⟩
  · exact .inl htab
  · exact absurd hline hn

theorem numbered_append {n : Nat} (h : n < 128) (rest : List Char) :
    numbered 4 ((Text.hexDigits 4 n).map Char.toUpper ++ rest) = some (Char.ofNat n, rest) := by
  obtain ⟨hlen, hall, hvalue⟩ := numbered_hexDigits n h
  have hvalid : n.isValidChar := .inl (by omega)
  simp only [numbered, List.take_left' hlen, List.drop_left' hlen, hlen, hall, hvalue]
  simp [hvalid]

theorem escapes_control {c : Char} (h : isControl c = true) : Escapes (controlEscape c) c := by
  refine ⟨'u', _, rfl, rfl, by decide, by decide, fun rest => ?_⟩
  have hread := numbered_append (lt_of_isControl h) rest
  rw [Char.ofNat_toNat] at hread
  unfold escape controlEscape
  rw [List.append_assoc, List.cons_append, Scan.bind_of_some (Scan.char_cons _ _),
    List.cons_append, Scan.bind_of_some rfl]
  exact hread

/-- What stands behind the backslash of a short escape. -/
def shortOf : Char → Option Char
  | '\x08' => some 'b'
  | '\t' => some 't'
  | '\n' => some 'n'
  | '\x0c' => some 'f'
  | '\r' => some 'r'
  | '"' => some '"'
  | '\\' => some '\\'
  | _ => none

theorem escapes_short {c e : Char} (h : shortOf c = some e) : Escapes ['\\', e] c := by
  unfold shortOf at h
  split at h <;> simp only [Option.some.injEq, reduceCtorEq] at h <;> subst h <;>
    exact ⟨_, _, rfl, rfl, by decide, by decide, fun rest => rfl⟩

/-- A character other than a quote is spelled with an escape where it needs one. -/
theorem escaped_cons {c : Char} (hc : c ≠ '"') (lines : Bool) (free run : Nat) (cs : List Char) :
    ∃ u, escaped lines free run (c :: cs) = u ++ escaped lines free 0 cs ∧ Stands lines u c := by
  rw [escaped, if_neg hc]
  refine ⟨_, rfl, ?_⟩
  split_ifs with h8 h9 ha hlines hc' hd hb hcontrol
  · exact .escaped (escapes_short (by rw [h8]; rfl))
  · exact .escaped (escapes_short (by rw [h9]; rfl))
  · exact ha ▸ .newLine hlines
  · exact .escaped (escapes_short (by rw [ha]; rfl))
  · exact .escaped (escapes_short (by rw [hc']; rfl))
  · exact .escaped (escapes_short (by rw [hd]; rfl))
  · exact .escaped (escapes_short (by rw [hb]; rfl))
  · exact .escaped (escapes_control hcontrol)
  · exact .plain (isPrintable_of_not_isControl (by simpa using hcontrol) ha) hc hb

/-- What is written between quotes spells the characters of the text. -/
theorem spelled_escaped (lines : Bool) (free run : Nat) (cs : List Char) :
    Spelled '"' free (Stands lines) run (escaped lines free run cs) cs := by
  induction cs generalizing run with
  | nil => exact .nil
  | cons c cs ih =>
    by_cases hc : c = '"'
    · subst hc
      rw [escaped, if_pos rfl]
      split_ifs with hrun
      · exact .quote hrun (ih (run + 1))
      · exact .char (.escaped (escapes_short rfl)) (ih 0)
    · obtain ⟨u, hu, hstands⟩ := escaped_cons hc lines free run cs
      exact hu ▸ .char hstands (ih 0)

/-! ### Texts on one line -/

section

variable {lines : Bool} {u text cs rest : List Char} {c : Char} {run free : Nat}

theorem basicChar_of_plain (h : isPrintable c = true) (hq : c ≠ '"') (hb : c ≠ '\\')
    (rest : List Char) : basicChar (c :: rest) = some (c, rest) :=
  Scan.sat_of_pos (by simp [h, hq, hb])

theorem basicChar_quote (rest : List Char) : basicChar ('"' :: rest) = none :=
  Scan.sat_of_neg (by simp)

theorem escape_of_ne (h : c ≠ '\\') (rest : List Char) : escape (c :: rest) = none :=
  Scan.bind_of_none (Scan.char_of_ne h)

/-- One character on one line. -/
theorem Stands.read (h : Stands false u c) (rest : List Char) :
    (basicChar <|> escape) (u ++ rest) = some (c, rest) := by
  cases h with
  | plain h hq hb => exact Scan.orElse_of_some (basicChar_of_plain h hq hb rest)
  | escaped h =>
    obtain ⟨e, us, rfl, -, -, -, hread⟩ := h
    have hfails : basicChar ('\\' :: e :: us ++ rest) = none := Scan.sat_of_neg (by simp)
    rw [Scan.orElse_of_none hfails]
    exact hread rest
  | newLine h => contradiction

theorem Stands.length_pos (h : Stands lines u c) : 0 < u.length := by
  rcases h with _ | ⟨_, _, rfl, _⟩ | _ <;> simp

theorem Stands.head_ne (h : Stands lines u c) : ∀ d ∈ (u ++ rest).head?, d ≠ '"' := by
  rcases h with ⟨-, hq, -⟩ | ⟨e, us, rfl, -⟩ | - <;> simp [*]

theorem series_basic (h : Spelled '"' 0 (Stands false) run text cs) (rest : List Char) :
    Scan.Series (basicChar <|> escape) (text ++ '"' :: rest) cs ('"' :: rest) := by
  induction h with
  | nil =>
    refine .stop ?_
    rw [List.nil_append, Scan.orElse_of_none (basicChar_quote rest)]
    exact escape_of_ne (by decide) rest
  | quote hrun => exact absurd hrun (Nat.not_lt_zero _)
  | @char run u text cs c hu _ ih =>
    rw [List.append_assoc]
    refine .step (hu.read _) ?_ ih
    have := hu.length_pos
    simp only [List.length_append]
    omega

theorem basicText_spelled (h : Spelled '"' 0 (Stands false) 0 text cs) (rest : List Char) :
    basicText ('"' :: (text ++ '"' :: rest)) = some (String.ofList cs, rest) := by
  unfold basicText
  rw [Scan.bind_of_some (Scan.char_cons _ _),
    Scan.bind_of_some (Scan.many_of_series (series_basic h rest)),
    Scan.bind_of_some (Scan.char_cons _ _)]
  rfl

/-- Text without control characters, line ends and apostrophes is read as it is. -/
theorem literalText_plain (h : ∀ c ∈ cs, isPrintable c = true ∧ c ≠ apostrophe)
    (rest : List Char) :
    literalText (apostrophe :: (cs ++ apostrophe :: rest)) = some (String.ofList cs, rest) := by
  have hread : Scan.takeWhile (fun c => isPrintable c && c != apostrophe)
      (cs ++ apostrophe :: rest) = some (cs, apostrophe :: rest) := by
    have hall : ∀ c ∈ cs, (isPrintable c && c != apostrophe) = true := fun c hc => by
      simp [h c hc]
    rw [Scan.takeWhile, List.takeWhile_append_of_pos hall, List.dropWhile_append_of_pos hall]
    simp
  unfold literalText
  rw [Scan.bind_of_some (Scan.char_cons _ _), Scan.bind_of_some hread,
    Scan.bind_of_some (Scan.char_cons _ _)]
  rfl

end

/-! ### Texts of several lines -/

theorem newLine_of_head {cs : List Char} (h : ∀ d ∈ cs.head?, d ≠ '\n' ∧ d ≠ '\r') :
    newLine cs = none := by
  cases cs with
  | nil => rfl
  | cons d cs =>
    obtain ⟨hn, hr⟩ := h d rfl
    exact (Scan.orElse_of_none (Scan.char_of_ne hn)).trans (Scan.bind_of_none (Scan.char_of_ne hr))

/-- What is read inside a text of several lines, apart from enclosing characters. -/
def content (piece : Scan (List Char)) : Scan (List Char) := piece <|> newLine *> pure ['\n']

/-- Pieces by which every character is read off its spelling, and that do not enclose the text. -/
structure Reads (quote : Char) (piece : Scan (List Char)) (P : List Char → Char → Prop) : Prop where
  char {u : List Char} {c : Char} : P u c → ∀ rest, content piece (u ++ rest) = some ([c], rest)
  stop (rest : List Char) : content piece (quote :: rest) = none
  /-- Only a line end is spelled as one. -/
  head {u : List Char} {c : Char} : P u c → ∃ d us, u = d :: us ∧ d ≠ quote ∧
    (c ≠ '\n' → d ≠ '\n' ∧ d ≠ '\r')
  visible : quote ≠ '\n' ∧ quote ≠ '\r'

section

variable {quote : Char} {piece : Scan (List Char)} {P : List Char → Char → Prop}
  {u text cs rest more left : List Char} {pieces : List (List Char)} {run k : Nat}

theorem takeWhile1_replicate (k : Nat) (hrest : ∀ d ∈ rest.head?, d ≠ quote) :
    Scan.takeWhile1 (· == quote) (List.replicate (k + 1) quote ++ rest) =
      some (List.replicate (k + 1) quote, rest) := by
  refine Scan.takeWhile1_append (by simp) (fun c hc => ?_) (fun d hd => ?_)
  · simp [List.eq_of_mem_replicate hc]
  · simpa using hrest d hd

theorem innerRun_replicate (hk : k < 2) (hrest : ∀ d ∈ rest.head?, d ≠ quote) :
    innerRun quote (List.replicate (k + 1) quote ++ rest) =
      some (List.replicate (k + 1) quote, rest) := by
  unfold innerRun
  rw [Scan.bind_of_some (takeWhile1_replicate k hrest), if_pos (by simp; omega)]
  rfl

theorem innerRun_of_closing (hk : 2 ≤ k) (hrest : ∀ d ∈ rest.head?, d ≠ quote) :
    innerRun quote (List.replicate (k + 1) quote ++ rest) = none := by
  unfold innerRun
  rw [Scan.bind_of_some (takeWhile1_replicate k hrest), if_neg (by simp; omega)]
  rfl

theorem closingRun_replicate (hk : k ≤ 2) (hrest : ∀ d ∈ rest.head?, d ≠ quote) :
    closingRun quote (List.replicate (k + 3) quote ++ rest) =
      some (List.replicate k quote, rest) := by
  unfold closingRun
  rw [Scan.bind_of_some (takeWhile1_replicate (k + 2) hrest), if_pos (by simp; omega),
    List.drop_replicate]
  rfl

/-- Everything that is read inside a text of several lines. -/
def inside (quote : Char) (piece : Scan (List Char)) : Scan (List Char) :=
  piece <|> newLine *> pure ['\n'] <|> innerRun quote

theorem inside_of_content {a : List Char} (h : content piece cs = some (a, rest)) :
    inside quote piece cs = some (a, rest) := by
  rw [inside, Scan.orElse_assoc]
  exact Scan.orElse_of_some h

theorem inside_of_none (h : content piece cs = none) :
    inside quote piece cs = innerRun quote cs := by
  rw [inside, Scan.orElse_assoc]
  exact Scan.orElse_of_none h

/-- A run of enclosing characters is read at once. -/
theorem Reads.series_run (hreads : Reads quote piece P) (hrun : run ≤ 2)
    (hmore : ∀ d ∈ more.head?, d ≠ quote)
    (h : Scan.Series (inside quote piece) more pieces left) :
    ∃ pieces', Scan.Series (inside quote piece) (List.replicate run quote ++ more) pieces' left ∧
      pieces'.flatten = List.replicate run quote ++ pieces.flatten := by
  cases run with
  | zero => exact ⟨pieces, h, rfl⟩
  | succ k =>
    refine ⟨List.replicate (k + 1) quote :: pieces, .step ?_ ?_ h, rfl⟩
    · rw [← innerRun_replicate (by omega) hmore]
      exact inside_of_none (hreads.stop _)
    · simp

/-- The pieces of a text of several lines. What stands in front of the closing run belongs to it. -/
theorem Reads.series (hreads : Reads quote piece P) (h : Spelled quote 2 P run text cs)
    (hrun : run ≤ 2) (hrest : ∀ d ∈ rest.head?, d ≠ quote) :
    ∃ pieces k, k ≤ 2 ∧
      Scan.Series (inside quote piece)
        (List.replicate run quote ++ (text ++ (List.replicate 3 quote ++ rest))) pieces
        (List.replicate (k + 3) quote ++ rest) ∧
      pieces.flatten ++ List.replicate k quote = List.replicate run quote ++ cs := by
  induction h with
  | @nil run =>
    refine ⟨[], run, hrun, ?_, by simp⟩
    rw [List.nil_append, ← List.append_assoc, List.replicate_append_replicate]
    refine .stop ?_
    rw [← innerRun_of_closing (k := run + 2) (by omega) hrest]
    exact inside_of_none (hreads.stop _)
  | @quote run text cs hlt _ ih =>
    obtain ⟨pieces, k, hk, hseries, hflat⟩ := ih (by omega)
    refine ⟨pieces, k, hk, ?_, ?_⟩
    · rw [List.replicate_succ', List.append_assoc] at hseries
      exact hseries
    · rw [hflat, List.replicate_succ', List.append_assoc]
      rfl
  | @char run u text cs c hu _ ih =>
    obtain ⟨pieces, k, hk, hseries, hflat⟩ := ih (by omega)
    obtain ⟨d, us, rfl, hd, -⟩ := hreads.head hu
    have hstep : Scan.Series (inside quote piece)
        (d :: us ++ (text ++ (List.replicate 3 quote ++ rest))) ([c] :: pieces)
        (List.replicate (k + 3) quote ++ rest) :=
      .step (inside_of_content (hreads.char hu _)) (Nat.lt_succ_of_le (by simp)) hseries
    obtain ⟨pieces', hseries', hflat'⟩ := hreads.series_run hrun (by simp [hd]) hstep
    refine ⟨pieces', k, hk, by rwa [List.append_assoc], ?_⟩
    rw [hflat', List.flatten_cons, List.append_assoc, List.append_assoc, hflat]
    rfl

/-- A text without line ends does not begin with one. -/
theorem Reads.head_spelled (hreads : Reads quote piece P) (h : Spelled quote 2 P 0 text cs)
    (hcs : '\n' ∉ cs) (rest : List Char) :
    ∀ d ∈ (text ++ quote :: rest).head?, d ≠ '\n' ∧ d ≠ '\r' := by
  cases h with
  | nil => simpa using hreads.visible
  | quote => simpa using hreads.visible
  | char hu =>
    obtain ⟨d, us, rfl, -, hd⟩ := hreads.head hu
    have hd := hd fun hc => hcs (hc ▸ List.mem_cons_self)
    simpa using hd

/-- A text of several lines is read back, with an extra line end in front if it holds any. -/
theorem Reads.multiLine (hreads : Reads quote piece P) (h : Spelled quote 2 P 0 text cs)
    (hrest : ∀ d ∈ rest.head?, d ≠ quote) :
    multiLine quote piece ([quote, quote, quote] ++ ((if cs.contains '\n' then ['\n'] else []) ++
      (text ++ ([quote, quote, quote] ++ rest)))) = some (String.ofList cs, rest) := by
  obtain ⟨pieces, k, hk, hseries, hflat⟩ := hreads.series h (Nat.zero_le 2) hrest
  have hopening : ∃ o, Scan.optional newLine ((if cs.contains '\n' then ['\n'] else []) ++
      (text ++ ([quote, quote, quote] ++ rest))) =
        some (o, text ++ ([quote, quote, quote] ++ rest)) := by
    by_cases hcs : '\n' ∈ cs
    · rw [if_pos (by simpa using hcs)]
      exact ⟨some (), Scan.optional_of_some (Scan.orElse_of_some (Scan.char_cons _ _))⟩
    · rw [if_neg (by simpa using hcs)]
      exact ⟨none, Scan.optional_of_none (newLine_of_head (hreads.head_spelled h hcs _))⟩
  obtain ⟨o, ho⟩ := hopening
  unfold Toml.multiLine
  rw [Scan.bind_of_some (Scan.word_append _ _), Scan.bind_of_some ho]
  have hmany := Scan.many_of_series hseries
  refine (Scan.bind_of_some hmany).trans ?_
  rw [Scan.bind_of_some (closingRun_replicate hk hrest), hflat]
  rfl

end

/-! ### Pieces of both forms -/

theorem reads_basicLines :
    Reads '"' (((· :: []) <$> basicChar) <|> lineJoin <|> ((· :: []) <$> escape))
      (Stands true) where
  char {u c} h rest := by
    cases h with
    | plain h hq hb =>
      have hchar := basicChar_of_plain h hq hb rest
      exact Scan.orElse_of_some (Scan.orElse_of_some (Scan.map_of_some hchar))
    | escaped h =>
      obtain ⟨e, us, rfl, hblank, hn, hr, hread⟩ := h
      have hchar : basicChar ('\\' :: e :: us ++ rest) = none := Scan.sat_of_neg (by simp)
      -- a backslash joins lines only in front of blanks and a line end
      have hjoin : lineJoin ('\\' :: e :: us ++ rest) = none := by
        have hblanks : blanks (e :: us ++ rest) = some ((), e :: us ++ rest) :=
          Scan.skipWhile_append (List.forall_mem_nil _) (by simpa using hblank)
        unfold lineJoin
        rw [List.cons_append, Scan.bind_of_some (Scan.char_cons _ _), Scan.bind_of_some hblanks]
        exact Scan.bind_of_none (newLine_of_head (by simpa using ⟨hn, hr⟩))
      refine Scan.orElse_of_some ?_
      rw [Scan.orElse_of_none (Scan.map_of_none hchar), Scan.orElse_of_none hjoin]
      exact Scan.map_of_some (hread rest)
    | newLine =>
      refine (Scan.orElse_of_none ?_).trans rfl
      rfl
  stop rest := rfl
  head h := by
    rcases h with ⟨hp, hq, -⟩ | ⟨e, us, rfl, -⟩ | -
    · refine ⟨_, [], rfl, hq, fun hn => ⟨hn, ?_⟩⟩
      rintro rfl
      exact absurd hp (by decide)
    · exact ⟨'\\', _, rfl, by decide, fun _ => by decide⟩
    · exact ⟨'\n', [], rfl, by decide, by simp⟩
  visible := by decide

/-- How a character is spelled without escapes. -/
def Literal (u : List Char) (c : Char) : Prop :=
  u = [c] ∧ c ≠ apostrophe ∧ isControl c = false

theorem reads_literalLines :
    Reads apostrophe ((· :: []) <$> Scan.sat fun c => isPrintable c && c != apostrophe)
      Literal where
  char {u c} h rest := by
    obtain ⟨rfl, hc, hcontrol⟩ := h
    by_cases hn : c = '\n'
    · subst hn
      rfl
    · have hp := isPrintable_of_not_isControl hcontrol hn
      exact Scan.orElse_of_some (Scan.map_of_some (Scan.sat_of_pos (by simp [hp, hc])))
  stop rest := rfl
  head {u c} h := by
    obtain ⟨rfl, hc, hcontrol⟩ := h
    refine ⟨c, [], rfl, hc, fun hn => ⟨hn, ?_⟩⟩
    rintro rfl
    exact absurd hcontrol (by decide)
  visible := by decide

/-! ### Runs -/

/-- The longest and the current run of a character, with one more character. -/
def runStep (c : Char) (r : Nat × Nat) (d : Char) : Nat × Nat :=
  let run := if d = c then r.2 + 1 else 0
  (max r.1 run, run)

theorem le_foldl_runStep (c : Char) (cs : List Char) (r : Nat × Nat) :
    r.1 ≤ (cs.foldl (runStep c) r).1 := by
  induction cs generalizing r with
  | nil => exact Nat.le_refl _
  | cons d cs ih => exact Nat.le_trans (Nat.le_max_left _ _) (ih (runStep c r d))

variable {quote : Char} {free : Nat} {P : List Char → Char → Prop} {cs rest : List Char}

/-- Where the runs do not get too long, every character may stand for itself. -/
theorem spelled_foldl {r : Nat × Nat} (hrun : r.2 ≤ r.1)
    (h : (cs.foldl (runStep quote) r).1 ≤ free) (hcs : ∀ c ∈ cs, c ≠ quote → P [c] c) :
    Spelled quote free P r.2 cs cs := by
  induction cs generalizing r with
  | nil => exact .nil
  | cons c cs ih =>
    obtain ⟨hc, hcs⟩ := List.forall_mem_cons.1 hcs
    have hnext : Spelled quote free P (runStep quote r c).2 cs cs :=
      ih (Nat.le_max_right _ _) h hcs
    have hbest : (runStep quote r c).1 ≤ free := Nat.le_trans (le_foldl_runStep quote cs _) h
    by_cases heq : c = quote
    · subst heq
      simp only [runStep, if_true] at hnext hbest
      exact .quote (by omega) hnext
    · simp only [runStep, if_neg heq] at hnext
      exact .char (hc heq) hnext

theorem spelled_self (h : longestRun quote cs ≤ free) (hcs : ∀ c ∈ cs, c ≠ quote → P [c] c) :
    Spelled quote free P 0 cs cs :=
  spelled_foldl (r := (0, 0)) (Nat.le_refl 0) h hcs

theorem Spelled.forall_of_zero {run : Nat} {text : List Char}
    (h : Spelled quote 0 P run text cs) : ∀ c ∈ cs, ∃ u, P u c := by
  induction h with
  | nil => simp
  | quote hrun => exact absurd hrun (Nat.not_lt_zero _)
  | char hu _ ih => exact List.forall_mem_cons.2 ⟨⟨_, hu⟩, ih⟩

theorem not_mem_of_longestRun (h : longestRun quote cs = 0) : quote ∉ cs := by
  have hspelled : Spelled quote 0 (fun _ c => c ≠ quote) 0 cs cs :=
    spelled_self (Nat.le_of_eq h) fun _ _ hc => hc
  intro hmem
  exact (hspelled.forall_of_zero quote hmem).elim fun _ hne => hne rfl

/-! ### The chosen form -/

theorem choose_literal (h : TextForm.choose cs = .literal) :
    (∀ c ∈ cs, isControl c = false) ∧ apostrophe ∉ cs ∧ '\n' ∉ cs := by
  simp only [TextForm.choose] at h
  split_ifs at h with _ hliteral
  simp only [Bool.and_eq_true, Bool.not_eq_true', decide_eq_true_eq] at hliteral
  obtain ⟨⟨hcontrol, hruns⟩, hlines⟩ := hliteral
  exact ⟨by simpa using hcontrol, not_mem_of_longestRun hruns, by simpa using hlines⟩

theorem choose_literalLines (h : TextForm.choose cs = .literalLines) :
    (∀ c ∈ cs, isControl c = false) ∧ longestRun apostrophe cs ≤ 2 := by
  simp only [TextForm.choose] at h
  split_ifs at h with _ _ _ hliteral
  simp only [Bool.and_eq_true, Bool.not_eq_true', decide_eq_true_eq] at hliteral
  exact ⟨by simpa using hliteral.1, hliteral.2⟩

variable {piece : Scan (List Char)} {more : List Char}

/-- One or two enclosing characters do not begin a text of several lines. -/
theorem multiLine_of_one (h : ∀ d ∈ more.head?, d ≠ quote) :
    multiLine quote piece (quote :: more) = none := by
  refine Scan.bind_of_none ?_
  rw [Scan.word, Scan.bind_of_some (Scan.char_cons _ _)]
  cases more with
  | nil => rfl
  | cons d more => exact Scan.bind_of_none (Scan.char_of_ne (h d rfl))

theorem multiLine_of_two (h : ∀ d ∈ more.head?, d ≠ quote) :
    multiLine quote piece (quote :: quote :: more) = none := by
  refine Scan.bind_of_none ?_
  rw [Scan.word, Scan.bind_of_some (Scan.char_cons _ _), Scan.word,
    Scan.bind_of_some (Scan.char_cons _ _)]
  cases more with
  | nil => rfl
  | cons d more => exact Scan.bind_of_none (Scan.char_of_ne (h d rfl))

theorem multiLine_of_ne {c : Char} (h : c ≠ quote) : multiLine quote piece (c :: more) = none :=
  Scan.bind_of_none (Scan.bind_of_none (Scan.char_of_ne h))

/-- Whatever form a text is written in, it is read back. -/
theorem text_writeText (s : String) (hrest : ∀ d ∈ rest.head?, d ≠ '"' ∧ d ≠ apostrophe) :
    text (writeText s ++ rest) = some (s, rest) := by
  have hquote : ∀ d ∈ rest.head?, d ≠ '"' := fun d hd => (hrest d hd).1
  have hapostrophe : ∀ d ∈ rest.head?, d ≠ apostrophe := fun d hd => (hrest d hd).2
  have hs : String.ofList s.toList = s := String.ofList_toList
  rw [writeText]
  generalize s.toList = cs at hs
  subst hs
  -- no form in quotes takes what begins with an apostrophe
  have hliterals (more : List Char) :
      text (apostrophe :: more) = (literalLines <|> literalText) (apostrophe :: more) := by
    have hlines : basicLines (apostrophe :: more) = none := multiLine_of_ne (by decide)
    have hbasic : basicText (apostrophe :: more) = none :=
      Scan.bind_of_none (Scan.char_of_ne (by decide))
    rw [text, Scan.orElse_of_none hlines, Scan.orElse_of_none hbasic]
  cases hform : TextForm.choose cs with
  | basic =>
    have hspelled := spelled_escaped false 0 0 cs
    simp only [TextForm.write]
    generalize escaped false 0 0 cs = text at hspelled
    have hlines : basicLines ('"' :: (text ++ '"' :: rest)) = none := by
      cases hspelled with
      | nil => exact multiLine_of_two hquote
      | quote hrun => exact absurd hrun (Nat.not_lt_zero _)
      | char hu => exact multiLine_of_one (by rw [List.append_assoc]; exact hu.head_ne)
    have hread : Toml.text ('"' :: (text ++ '"' :: rest)) = some (String.ofList cs, rest) := by
      rw [Toml.text, Scan.orElse_of_none hlines]
      exact Scan.orElse_of_some (basicText_spelled hspelled rest)
    simpa using hread
  | literal =>
    obtain ⟨hcontrol, hnone, hline⟩ := choose_literal hform
    have hcs : ∀ c ∈ cs, isPrintable c = true ∧ c ≠ apostrophe := fun c hc =>
      ⟨isPrintable_of_not_isControl (hcontrol c hc) fun h => hline (h ▸ hc),
        fun h => hnone (h ▸ hc)⟩
    have hlines : literalLines (apostrophe :: (cs ++ apostrophe :: rest)) = none := by
      cases cs with
      | nil => exact multiLine_of_two hapostrophe
      | cons c cs => exact multiLine_of_one (by simpa using (hcs c List.mem_cons_self).2)
    have hread :
        text (apostrophe :: (cs ++ apostrophe :: rest)) = some (String.ofList cs, rest) := by
      rw [hliterals, Scan.orElse_of_none hlines, literalText_plain hcs]
    simpa [TextForm.write, apostrophe] using hread
  | basicLines =>
    have hread := reads_basicLines.multiLine (spelled_escaped true 2 0 cs) hquote
    simp only [TextForm.write, List.append_assoc]
    exact Scan.orElse_of_some hread
  | literalLines =>
    obtain ⟨hcontrol, hruns⟩ := choose_literalLines hform
    have hspelled : Spelled apostrophe 2 Literal 0 cs cs :=
      spelled_self hruns fun c hc hne => ⟨rfl, hne, hcontrol c hc⟩
    have hread := reads_literalLines.multiLine hspelled hapostrophe
    simp only [TextForm.write, List.append_assoc]
    exact (hliterals _).trans (Scan.orElse_of_some hread)

end PadRouter.Toml

import PadRouter.Text.Scan

/-!
# What scanners read

* `Scan.bind_of_some`, `Scan.orElse_of_none` — a scanner in steps, and a choice of scanners.
* `Scan.skipWhile_append`, `Scan.takeWhile1_append` — characters of one kind, up to the first of
  another kind.
* `Scan.Rows` — the texts of some items with separators between them.
* `Scan.sepBy1_rows` — such a text is read as these items.
* `Scan.Series` — what a scanner reads over and over until it fails.
-/

namespace PadRouter.Scan

variable {α β : Type} {p : Scan α} {f : α → Scan β} {cs ds rest left : List Char} {a : α}
  {as : List α} {c : Char} {q : Char → Bool}

theorem bind_of_some (h : p cs = some (a, rest)) : (p >>= f) cs = f a rest := by
  change (p cs).bind (fun r => f r.1 r.2) = f a rest
  rw [h]
  rfl

theorem bind_of_none (h : p cs = none) : (p >>= f) cs = none := by
  change (p cs).bind (fun r => f r.1 r.2) = none
  rw [h]
  rfl

/-! ### Choices -/

variable {p' : Scan α}

theorem orElse_of_some (h : p cs = some (a, rest)) : (p <|> p') cs = some (a, rest) := by
  change ((p cs).orElse fun _ => p' cs) = some (a, rest)
  rw [h]
  rfl

theorem orElse_of_none (h : p cs = none) : (p <|> p') cs = p' cs := by
  change ((p cs).orElse fun _ => p' cs) = p' cs
  rw [h]
  rfl

theorem orElse_assoc (p p' p'' : Scan α) (cs : List Char) :
    (p <|> p' <|> p'') cs = ((p <|> p') <|> p'') cs := by
  cases h : p cs with
  | none => rw [orElse_of_none h]; exact congrArg (Option.orElse · _) (orElse_of_none h).symm
  | some r => rw [orElse_of_some h]; exact (orElse_of_some (orElse_of_some h)).symm

theorem map_of_some {g : α → β} (h : p cs = some (a, rest)) :
    (g <$> p) cs = some (g a, rest) := by
  change (p cs).bind (fun r => some (g r.1, r.2)) = some (g a, rest)
  rw [h]
  rfl

theorem map_of_none {g : α → β} (h : p cs = none) : (g <$> p) cs = none := by
  change (p cs).bind (fun r => some (g r.1, r.2)) = none
  rw [h]
  rfl

theorem optional_of_some (h : p cs = some (a, rest)) : optional p cs = some (some a, rest) := by
  rw [optional, h]

theorem optional_of_none (h : p cs = none) : optional p cs = some (none, cs) := by
  rw [optional, h]

/-! ### Characters -/

theorem sat_of_pos (h : q c = true) : sat q (c :: rest) = some (c, rest) := by
  rw [sat, if_pos h]

theorem sat_of_neg (h : q c = false) : sat q (c :: rest) = none := by
  rw [sat, if_neg (by simp [h])]

theorem char_cons (c : Char) (rest : List Char) : char c (c :: rest) = some ((), rest) := by
  have hsat : sat (· == c) (c :: rest) = some (c, rest) := by rw [sat, if_pos (by simp)]
  rw [char, bind_of_some hsat]
  rfl

theorem char_of_ne {d : Char} (h : d ≠ c) : char c (d :: rest) = none := by
  have hsat : sat (· == c) (d :: rest) = none := by rw [sat, if_neg (by simpa using h)]
  exact bind_of_none hsat

theorem peek_cons (c : Char) (rest : List Char) :
    peek (c :: rest) = some (some c, c :: rest) := rfl

theorem dropWhile_of_head (hstop : ∀ c ∈ rest.head?, q c = false) : rest.dropWhile q = rest := by
  cases rest with
  | nil => rfl
  | cons c rest => rw [List.dropWhile_cons_of_neg (by simp [hstop c rfl])]

theorem takeWhile_of_head (hstop : ∀ c ∈ rest.head?, q c = false) : rest.takeWhile q = [] := by
  cases rest with
  | nil => rfl
  | cons c rest => rw [List.takeWhile_cons_of_neg (by simp [hstop c rfl])]

/-- Characters of one kind are left out up to the first of another kind. -/
theorem skipWhile_append (hall : ∀ c ∈ cs, q c = true) (hstop : ∀ c ∈ rest.head?, q c = false) :
    skipWhile q (cs ++ rest) = some ((), rest) := by
  rw [skipWhile, List.dropWhile_append_of_pos hall, dropWhile_of_head hstop]

/-- Characters of one kind are read up to the first of another kind. -/
theorem takeWhile1_append (hne : cs ≠ []) (hall : ∀ c ∈ cs, q c = true)
    (hstop : ∀ c ∈ rest.head?, q c = false) :
    takeWhile1 q (cs ++ rest) = some (cs, rest) := by
  obtain ⟨c, more, rfl⟩ := List.exists_cons_of_ne_nil hne
  have hmore : ∀ c ∈ more, q c = true := fun d hd => hall d (List.mem_cons_of_mem c hd)
  have hfirst : sat q (c :: (more ++ rest)) = some (c, more ++ rest) := by
    rw [sat, if_pos (hall c List.mem_cons_self)]
  have hothers : takeWhile q (more ++ rest) = some (more, rest) := by
    rw [takeWhile, List.takeWhile_append_of_pos hmore, List.dropWhile_append_of_pos hmore,
      takeWhile_of_head hstop, dropWhile_of_head hstop, List.append_nil]
  rw [takeWhile1, List.cons_append, bind_of_some hfirst, bind_of_some hothers]
  rfl

/-- What does not begin with a character of a kind is not read as characters of this kind. -/
theorem takeWhile1_of_head (hstop : ∀ c ∈ cs.head?, q c = false) : takeWhile1 q cs = none := by
  have hfirst : sat q cs = none := by
    cases cs with
    | nil => rfl
    | cons c cs => exact sat_of_neg (hstop c rfl)
  exact bind_of_none hfirst

/-- A sequence of characters is read off its own text. -/
theorem word_append (w rest : List Char) : word w (w ++ rest) = some ((), rest) := by
  induction w with
  | nil => rfl
  | cons c w ih =>
    rw [word, List.cons_append, bind_of_some (char_cons c _)]
    exact ih

/-! ### Series -/

/-- What a scanner reads off a text over and over, and what it leaves where it fails. -/
inductive Series (p : Scan α) : List Char → List α → List Char → Prop
  | stop {cs : List Char} : p cs = none → Series p cs [] cs
  | step {cs rest left : List Char} {a : α} {as : List α} :
    p cs = some (a, rest) → rest.length < cs.length → Series p rest as left →
      Series p cs (a :: as) left

/-- Nothing is read twice, so there are fewer items than characters. -/
theorem upTo_of_series (h : Series p cs as left) {bound : List Char}
    (hbound : cs.length ≤ bound.length) : upTo bound p cs = some (as, left) := by
  induction h generalizing bound with
  | stop hp =>
    cases bound with
    | nil => rfl
    | cons b bound => simp only [upTo, hp]
  | step hp hlt _ ih =>
    obtain ⟨b, bound, rfl⟩ := List.exists_cons_of_length_pos (show 0 < bound.length by omega)
    simp only [upTo, hp]
    exact bind_of_some (ih (by simp only [List.length_cons] at hbound; omega))

theorem many_of_series (h : Series p cs as left) : many p cs = some (as, left) :=
  upTo_of_series h (Nat.le_refl _)

/-! ### Rows -/

/-- The texts of some items, of which there is at least one, with a separator between them. -/
inductive Rows (separator : Char) (P : List Char → α → Prop) : List Char → List α → Prop
  | one {cs : List Char} {a : α} : P cs a → Rows separator P cs [a]
  | more {cs ds : List Char} {a : α} {as : List α} :
    P cs a → Rows separator P ds as → Rows separator P (cs ++ separator :: ds) (a :: as)

variable {P : List Char → α → Prop}

theorem Rows.length_le (h : Rows c P ds as) : as.length ≤ ds.length + 1 := by
  induction h with
  | one => simp
  | more _ _ ih =>
    simp only [List.length_cons, List.length_append]
    omega

theorem upTo_of_ends (hrest : ∀ d ∈ rest.head?, d ≠ c) (bound : List Char) :
    upTo bound (do let _ ← char c; p) rest = some ([], rest) := by
  have hchar : char c rest = none := by
    cases rest with
    | nil => rfl
    | cons d rest => exact char_of_ne (hrest d rfl)
  cases bound with
  | nil => rfl
  | cons b bound =>
    simp only [upTo]
    rw [bind_of_none hchar]

theorem Rows.map (f : α → β) (h : Rows c P ds as) :
    Rows c (fun cs b => ∃ a, P cs a ∧ f a = b) ds (as.map f) := by
  induction h with
  | one ha => exact .one ⟨_, ha, rfl⟩
  | more ha _ ih => exact .more ⟨_, ha, rfl⟩ ih

/-- A scanner that reads items up to some length reads those up to a shorter one. -/
theorem read_of_shorter {stop : List Char → Prop} {short long : Nat} (hle : short ≤ long)
    (hread : ∀ cs a rest, P cs a → cs.length ≤ long → stop rest →
      p (cs ++ rest) = some (a, rest)) :
    ∀ cs a rest, P cs a → cs.length ≤ short → stop rest → p (cs ++ rest) = some (a, rest) :=
  fun cs a rest ha hlen => hread cs a rest ha (Nat.le_trans hlen hle)

theorem length_le_row (cs : List Char) (c : Char) (ds : List Char) :
    ds.length ≤ (cs ++ c :: ds).length := by
  simp only [List.length_append, List.length_cons]
  omega

/-- A scanner that reads each item, up to where items stop, reads the items behind a separator. -/
theorem upTo_rows {stop : List Char → Prop} (h : Rows c P ds as)
    (hread : ∀ cs a rest, P cs a → cs.length ≤ ds.length → stop rest →
      p (cs ++ rest) = some (a, rest))
    (hsep : ∀ more, stop (c :: more)) (hstop : stop rest) (hrest : ∀ d ∈ rest.head?, d ≠ c)
    {bound : List Char} (hbound : as.length ≤ bound.length) :
    upTo bound (do let _ ← char c; p) (c :: (ds ++ rest)) = some (as, rest) := by
  induction h generalizing bound with
  | @one cs a ha =>
    obtain ⟨b, bound, rfl⟩ := List.exists_cons_of_length_pos (show 0 < bound.length from hbound)
    simp only [upTo]
    rw [bind_of_some (char_cons c _), hread cs a rest ha (Nat.le_refl _) hstop]
    exact bind_of_some (upTo_of_ends hrest bound)
  | @more cs ds a as ha _ ih =>
    obtain ⟨b, bound, rfl⟩ := List.exists_cons_of_length_pos (Nat.zero_lt_of_lt hbound)
    have hlast := read_of_shorter (length_le_row cs c ds) hread
    simp only [upTo]
    rw [bind_of_some (char_cons c _), List.append_assoc, List.cons_append,
      hread cs a _ ha (by simp) (hsep _)]
    exact bind_of_some (ih hlast (Nat.le_of_succ_le_succ hbound))

/-- A scanner that reads each item, up to where items stop, reads the items of a row. -/
theorem sepBy1_rows {stop : List Char → Prop} (h : Rows c P ds as)
    (hread : ∀ cs a rest, P cs a → cs.length ≤ ds.length → stop rest →
      p (cs ++ rest) = some (a, rest))
    (hsep : ∀ more, stop (c :: more)) (hstop : stop rest) (hrest : ∀ d ∈ rest.head?, d ≠ c) :
    sepBy1 p (char c) (ds ++ rest) = some (as, rest) := by
  unfold sepBy1
  cases h with
  | one ha =>
    rw [bind_of_some (hread _ _ rest ha (Nat.le_refl _) hstop)]
    exact bind_of_some (upTo_of_ends hrest rest)
  | @more cs ds a as ha hrows =>
    have hlast := read_of_shorter (length_le_row cs c ds) hread
    have hbound : as.length ≤ (c :: (ds ++ rest)).length := by
      have := hrows.length_le
      simp only [List.length_append, List.length_cons]
      omega
    rw [List.append_assoc, List.cons_append, bind_of_some (hread cs a _ ha (by simp) (hsep _))]
    exact bind_of_some (upTo_rows hrows hlast hsep hstop hrest hbound)

/-- What a row is read as depends on its first item only through how that item is read. -/
theorem sepBy1_congr (h : p cs = p ds) : sepBy1 p (char c) cs = sepBy1 p (char c) ds := by
  change (p cs).bind _ = (p ds).bind _
  rw [h]

end PadRouter.Scan

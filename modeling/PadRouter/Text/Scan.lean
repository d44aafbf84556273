/-!
# Scanners

A scanner reads something off the front of a list of characters and leaves the rest.

* `Scan α` — a scanner for `α`; it fails without having read anything.
* `Scan.run?` — runs a scanner that has to read the whole text.
* `Scan.many`, `Scan.sepBy1` — repetition; it ends since every text does.
-/

namespace PadRouter

/-- Reads an `α` off the front of a text, or fails. -/
abbrev Scan := StateT (List Char) Option

namespace Scan

variable {α β : Type}

/-- Runs a scanner that has to read the whole text. -/
def run? (p : Scan α) (s : String) : Option α :=
  match p s.toList with
  | some (a, []) => some a
  | _ => none

/-- The next character. -/
def next : Scan Char
  | [] => none
  | c :: cs => some (c, cs)

/-- Looks at the next character without reading it. -/
def peek : Scan (Option Char) := fun cs => some (cs.head?, cs)

/-- The next character, if it satisfies `p`. -/
def sat (p : Char → Bool) : Scan Char
  | [] => none
  | c :: cs => if p c then some (c, cs) else none

/-- One given character. -/
def char (c : Char) : Scan Unit := do
  let _ ← sat (· == c)

/-- A given sequence of characters. -/
def word : List Char → Scan Unit
  | [] => pure ()
  | c :: cs => do
    char c
    word cs

/-- As many characters as satisfy `p`. -/
def takeWhile (p : Char → Bool) : Scan (List Char) := fun cs =>
  some (cs.takeWhile p, cs.dropWhile p)

/-- Leaves out the characters that satisfy `p`. -/
def skipWhile (p : Char → Bool) : Scan Unit := fun cs => some ((), cs.dropWhile p)

/-- At least one character, all satisfying `p`. -/
def takeWhile1 (p : Char → Bool) : Scan (List Char) := do
  let c ← sat p
  let cs ← takeWhile p
  return c :: cs

/-- What `p` reads, or nothing where `p` fails. -/
def optional (p : Scan α) : Scan (Option α) := fun cs =>
  match p cs with
  | some (a, rest) => some (some a, rest)
  | none => some (none, cs)

/-- Runs `p` until it fails, at most once for each item of a list. -/
def upTo {γ : Type} : List γ → Scan α → Scan (List α)
  | [], _ => pure []
  | _ :: bound, p => fun cs =>
    match p cs with
    | some (a, rest) => (do return a :: (← upTo bound p) : Scan (List α)) rest
    | none => some ([], cs)

/-- Runs `p` until it fails. A scanner that reads something succeeds at most once per character. -/
def many (p : Scan α) : Scan (List α) := fun cs => upTo cs p cs

/-- One or more of what `p` reads, with `sep` between them. -/
def sepBy1 (p : Scan α) (sep : Scan β) : Scan (List α) := do
  let a ← p
  let rest ← many (do
    let _ ← sep
    p)
  return a :: rest

/-- Succeeds at the end of the text only. -/
def atEnd : Scan Unit
  | [] => some ((), [])
  | _ => none

end Scan

end PadRouter

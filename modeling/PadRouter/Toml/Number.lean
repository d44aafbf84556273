import PadRouter.Text.Hex
import PadRouter.Tree.Basic

/-!
# Numbers and moments in TOML

Integers, floating-point numbers, dates and times all begin with a sign or a digit. A word of this
kind is read as a whole.

* `Toml.integer?` — an integer of 64 bits, with its sign or in another base.
* `Toml.isFloat` — whether a word is a floating-point number that is not too large.
* `Toml.isMoment` — whether a word is a date, a time, or both.
* `Toml.wordTree?` — the tree of a word.
-/

namespace PadRouter.Toml

/-- The digits of a word in which underscores stand between digits. -/
def digits? (isDigit : Char → Bool) : List Char → Option (List Char)
  | [] => none
  | [c] => if isDigit c then some [c] else none
  | c :: '_' :: cs => if isDigit c then (digits? isDigit cs).map (c :: ·) else none
  | c :: cs => if isDigit c then (digits? isDigit cs).map (c :: ·) else none

/-- The value of digits in a base. -/
def valueIn (base : Nat) (digits : List Char) : Nat :=
  digits.foldl (fun n c => n * base + (Text.hexValue? c).getD 0) 0

/-- A word without its sign, and whether the sign is a minus. -/
def unsigned : List Char → Bool × List Char
  | '+' :: cs => (false, cs)
  | '-' :: cs => (true, cs)
  | cs => (false, cs)

/-- The digits of a decimal integer, which has no needless zero in front. -/
def decimal? (cs : List Char) : Option (List Char) := do
  let ds ← digits? Char.isDigit cs
  if ds.head? == some '0' && ds.length != 1 then none else some ds

/-- Whether a number fits into 64 bits with a sign. -/
def fits64 (n : Int) : Bool := -0x8000000000000000 ≤ n && n < 0x8000000000000000

/-- Refuses an integer that does not fit. -/
def bounded? (n : Int) : Option Int := if fits64 n then some n else none

/-- An integer. -/
def integer? : List Char → Option Int
  | '0' :: 'x' :: cs => do
    bounded? (valueIn 16 (← digits? (fun c => (Text.hexValue? c).isSome) cs))
  | '0' :: 'o' :: cs => do bounded? (valueIn 8 (← digits? (fun c => '0' ≤ c && c ≤ '7') cs))
  | '0' :: 'b' :: cs => do bounded? (valueIn 2 (← digits? (fun c => c == '0' || c == '1') cs))
  | cs => do
    let (negative, cs) := unsigned cs
    let n := valueIn 10 (← decimal? cs)
    bounded? (if negative then -n else n)

/-! ### Floating-point numbers -/

/-- A number beyond the largest floating-point number: `mantissa * 10 ^ exponent` rounds to
infinity. -/
def overflows (mantissa : Nat) (exponent : Int) : Bool :=
  let size := (Nat.toDigits 10 mantissa).length + exponent
  if mantissa = 0 || size < 300 then false
  else if 320 < size then true
  else
    let bound := Nat.pow 2 1024 - Nat.pow 2 970
    match exponent with
    | .ofNat e => bound ≤ mantissa * Nat.pow 10 e
    | .negSucc e => bound * Nat.pow 10 (e + 1) ≤ mantissa

/-- The value of an exponent with its letter; none is zero. -/
def exponent? : List Char → Option Int
  | [] => some 0
  | e :: cs => do
    if e == 'e' || e == 'E' then
      let (negative, cs) := unsigned cs
      let n := valueIn 10 (← digits? Char.isDigit cs)
      return if negative then -n else n
    else none

/-- The digits behind a decimal point and the exponent. At least one of the two must be there. -/
def fraction? : List Char → Option (List Char × Int)
  | [] => none
  | '.' :: cs => do
    let isInner (c : Char) : Bool := c.isDigit || c == '_'
    let ds ← digits? Char.isDigit (cs.takeWhile isInner)
    return (ds, ← exponent? (cs.dropWhile isInner))
  | cs => do return ([], ← exponent? cs)

/-- Whether a word is a floating-point number that is not too large. -/
def isFloat (word : List Char) : Bool :=
  let (negative, cs) := unsigned word
  if String.ofList cs == "inf" || String.ofList cs == "nan" then true
  else
    let isInner (c : Char) : Bool := c.isDigit || c == '_'
    match decimal? (cs.takeWhile isInner), fraction? (cs.dropWhile isInner) with
    | some whole, some (part, exponent) =>
      negative || !overflows (valueIn 10 (whole ++ part)) (exponent - part.length)
    | _, _ => false

/-! ### Dates and times -/

/-- A number of exactly so many digits, and the rest. -/
def fixed? (count : Nat) (cs : List Char) : Option (Nat × List Char) :=
  let ds := cs.take count
  if ds.length = count && ds.all Char.isDigit then some (valueIn 10 ds, cs.drop count) else none

/-- The text behind one given character. -/
def behind? (c : Char) : List Char → Option (List Char)
  | d :: cs => if d = c then some cs else none
  | [] => none

/-- The number of days of a month. -/
def daysIn (year month : Nat) : Nat :=
  if month = 2 then
    if year % 4 = 0 ∧ (year % 100 ≠ 0 ∨ year % 400 = 0) then 29 else 28
  else if month = 4 ∨ month = 6 ∨ month = 9 ∨ month = 11 then 30
  else 31

/-- The text behind a date. -/
def date? (cs : List Char) : Option (List Char) := do
  let (year, cs) ← fixed? 4 cs
  let cs ← behind? '-' cs
  let (month, cs) ← fixed? 2 cs
  let cs ← behind? '-' cs
  let (day, cs) ← fixed? 2 cs
  if 1 ≤ month ∧ month ≤ 12 ∧ 1 ≤ day ∧ day ≤ daysIn year month then some cs else none

/-- The text behind the digits of a fraction of a second. -/
def subsecond? : List Char → Option (List Char)
  | '.' :: cs => if (cs.head?.any Char.isDigit) then some (cs.dropWhile Char.isDigit) else none
  | cs => some cs

/-- The text behind a time of day. -/
def time? (cs : List Char) : Option (List Char) := do
  let (hour, cs) ← fixed? 2 cs
  let cs ← behind? ':' cs
  let (minute, cs) ← fixed? 2 cs
  let cs ← behind? ':' cs
  let (second, cs) ← fixed? 2 cs
  if hour ≤ 23 ∧ minute ≤ 59 ∧ second ≤ 60 then subsecond? cs else none

/-- Whether a text is an offset from universal time, or empty. -/
def isOffset : List Char → Bool
  | [] => true
  | ['Z'] | ['z'] => true
  | sign :: cs =>
    (sign == '+' || sign == '-') &&
      (do
        let (hour, cs) ← fixed? 2 cs
        let cs ← behind? ':' cs
        let (minute, cs) ← fixed? 2 cs
        return cs.isEmpty && hour ≤ 23 && minute ≤ 59 : Option Bool) == some true

/-- Whether a text is a time of day with or without an offset. -/
def isTimeWithOffset (cs : List Char) : Bool :=
  match time? cs with
  | some rest => isOffset rest
  | none => false

/-- Whether a word is a date, a time, or a date with a time. -/
def isMoment (word : List Char) : Bool :=
  match date? word with
  | some [] => true
  | some (sep :: cs) => (sep == 'T' || sep == 't' || sep == ' ') && isTimeWithOffset cs
  | none => time? word == some []

/-- The tree of a word that begins with a sign or a digit, or of one of the special numbers. -/
def wordTree? (word : List Char) : Option Tree :=
  match integer? word with
  | some n => some (.int n)
  | none =>
    if isFloat word then some (.foreign .fraction)
    else if isMoment word then some (.foreign .moment)
    else none

end PadRouter.Toml

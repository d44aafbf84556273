import PadRouter.Text.Hex
import PadRouter.Text.Scan
import PadRouter.Tree.Basic

/-!
# Reading JSON

* `Json.parse?` — the tree of a JSON text, with blanks around it and nothing else.
* `Json.dialect` — how JSON writes records and names.

A text with half a surrogate pair is well formed. It has no characters to stand for, so it becomes a
leaf that no reader takes.
-/

namespace PadRouter.Json

/-- In JSON a record written as a list has no surplus items, and `null` stands behind a name. -/
def dialect : Dialect where
  surplus := false
  unit
    | .null => true
    | _ => false

/-! ### Blanks and texts -/

/-- Space, tab, line feed and carriage return. -/
def isBlank (c : Char) : Bool := c == ' ' || c == '\t' || c == '\n' || c == '\r'

/-- Leaves out blanks. -/
def blanks : Scan Unit := Scan.skipWhile isBlank

/-- One unit of a quoted text. -/
inductive Piece
  /-- A character that stands for itself, or one with a short escape. -/
  | char (c : Char)
  /-- A code unit, written with four hexadecimal digits. -/
  | unit (n : Nat)
  deriving DecidableEq, Repr

/-- The character of a short escape. -/
def shortEscape? (c : Char) : Option Char :=
  [('"', '"'), ('\\', '\\'), ('/', '/'), ('b', '\x08'), ('f', '\x0c'), ('n', '\n'), ('r', '\r'),
    ('t', '\t')].lookup c

/-- The value of four hexadecimal digits. -/
def unit? (a b c d : Char) : Option Nat := do
  return (((← Text.hexValue? a) * 16 + (← Text.hexValue? b)) * 16 + (← Text.hexValue? c)) * 16 +
    (← Text.hexValue? d)

/-- The pieces up to the closing quote, and the rest behind it. -/
def pieces? : List Char → Option (List Piece × List Char)
  | [] => none
  | '"' :: cs => some ([], cs)
  | '\\' :: 'u' :: a :: b :: c :: d :: cs => do
    let n ← unit? a b c d
    let (ps, rest) ← pieces? cs
    return (.unit n :: ps, rest)
  | '\\' :: c :: cs => do
    let e ← shortEscape? c
    let (ps, rest) ← pieces? cs
    return (.char e :: ps, rest)
  | c :: cs => do
    if c < ' ' || c == '\\' then none
    else
      let (ps, rest) ← pieces? cs
      return (.char c :: ps, rest)

/-- Whether a code unit is the first half of a pair. -/
def isHigh (n : Nat) : Bool := 0xD800 ≤ n && n ≤ 0xDBFF

/-- Whether a code unit is the second half of a pair. -/
def isLow (n : Nat) : Bool := 0xDC00 ≤ n && n ≤ 0xDFFF

/-- The characters of a list of pieces; `none` if half a pair stands alone. -/
def chars? : List Piece → Option (List Char)
  | [] => some []
  | .char c :: ps => (chars? ps).map (c :: ·)
  | .unit n :: .unit m :: ps =>
    if isHigh n then
      if isLow m then
        (chars? ps).map (Char.ofNat (0x10000 + (n - 0xD800) * 0x400 + (m - 0xDC00)) :: ·)
      else none
    else if isLow n then none
    else (chars? (.unit m :: ps)).map (Char.ofNat n :: ·)
  | .unit n :: ps =>
    if isHigh n || isLow n then none else (chars? ps).map (Char.ofNat n :: ·)

/-- A quoted text. The result is `none` for a well-formed text without characters to stand for. -/
def quoted : Scan (Option String) := do
  Scan.char '"'
  let ps ← pieces?
  return (chars? ps).map String.ofList

/-! ### Numbers -/

/-- Whether a character can stand in a number. -/
def isNumeral (c : Char) : Bool := c.isDigit || c == '-' || c == '+' || c == '.' || c == 'e' || c == 'E'

/-- An exponent, or nothing. -/
def isExponent : List Char → Bool
  | [] => true
  | e :: cs =>
    let digits := match cs with
      | '+' :: ds => ds
      | '-' :: ds => ds
      | ds => ds
    (e == 'e' || e == 'E') && !digits.isEmpty && digits.all Char.isDigit

/-- A fraction with or without an exponent, an exponent, or nothing. -/
def isFraction : List Char → Bool
  | '.' :: cs => !(cs.takeWhile Char.isDigit).isEmpty && isExponent (cs.dropWhile Char.isDigit)
  | cs => isExponent cs

/-- The value of a list of decimal digits. -/
def decimalValue (digits : List Char) : Nat :=
  digits.foldl (fun n c => n * 10 + (c.toNat - '0'.toNat)) 0

/-- The tree of a number without its sign. The integer part has no needless zero; a number that is
not plain digits, and a negative zero, is a fraction. -/
def numberOf? (negative : Bool) (cs : List Char) : Option Tree :=
  let whole := cs.takeWhile Char.isDigit
  let rest := cs.dropWhile Char.isDigit
  if whole.isEmpty || (whole.head? == some '0' && whole.length != 1) then none
  else if !rest.isEmpty then if isFraction rest then some (.foreign .fraction) else none
  else
    let n := decimalValue whole
    if !negative then some (.int n)
    else if n = 0 then some (.foreign .fraction)
    else some (.int (-n))

/-- A number. -/
def number : Scan Tree := do
  match ← Scan.takeWhile1 isNumeral with
  | '-' :: cs => numberOf? true cs
  | cs => numberOf? false cs

/-! ### Values -/

/-- One of the three words. -/
def literal : Scan Tree := do
  match String.ofList (← Scan.takeWhile1 Char.isAlpha) with
  | "null" => return .null
  | "true" => return .bool true
  | "false" => return .bool false
  | _ => failure

/-- A record of these members, where a name may have no characters to stand for. -/
def recordOf (members : List (Option String × Tree)) : Tree :=
  match members.mapM fun m => m.1.map fun n => (n, m.2) with
  | some named => .record named
  | none => .foreign .garbled

/-- A name with its value. -/
def memberWith (value : Scan Tree) : Scan (Option String × Tree) := do
  blanks
  let name ← quoted
  blanks
  Scan.char ':'
  return (name, ← value)

/-- A value with blanks around it. Values nest less deeply than the first argument says. -/
def value : Nat → Scan Tree
  | 0 => failure
  | depth + 1 => do
    blanks
    let t ← match ← Scan.peek with
      | some '"' => do
        match ← quoted with
        | some s => pure (.text s)
        | none => pure (.foreign .garbled)
      | some '[' => do
        Scan.char '['
        blanks
        if (← Scan.peek) == some ']' then
          Scan.char ']'
          pure (.list [])
        else
          let items ← Scan.sepBy1 (value depth) (Scan.char ',')
          Scan.char ']'
          pure (.list items)
      | some '{' => do
        Scan.char '{'
        blanks
        if (← Scan.peek) == some '}' then
          Scan.char '}'
          pure (.record [])
        else
          let members ← Scan.sepBy1 (memberWith (value depth)) (Scan.char ',')
          Scan.char '}'
          pure (recordOf members)
      | some c => if isNumeral c then number else literal
      | none => failure
    blanks
    return t

/-- The tree of a text. Each level of nesting takes a character, so the length bounds the depth. -/
def parse? (s : String) : Option Tree := (value (s.length + 1)).run? s

end PadRouter.Json

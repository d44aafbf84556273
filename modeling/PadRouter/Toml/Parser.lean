import PadRouter.Text.Scan
import PadRouter.Toml.Document
import PadRouter.Toml.Number

/-!
# Reading TOML

* `Toml.parse?` — the tree of a TOML text.
* `Toml.dialect` — how TOML writes records and names.
-/

namespace PadRouter.Toml

/-- In TOML a record written as a list may have surplus items, and something empty stands behind a
name. -/
def dialect : Dialect where
  surplus := true
  unit
    | .list [] | .record [] => true
    | _ => false

/-- How deeply arrays and tables nest at most, and how many names a dotted key has at most. -/
def maxDepth : Nat := 79

/-! ### Blanks and comments -/

/-- Space and tab. -/
def isBlank (c : Char) : Bool := c == ' ' || c == '\t'

/-- Leaves out blanks. -/
def blanks : Scan Unit := Scan.skipWhile isBlank

/-- The end of a line: a line feed, with or without a carriage return. -/
def newLine : Scan Unit :=
  Scan.char '\n' <|> Scan.word ['\r', '\n']

/-- Whether a character may stand in a comment or a text: no control character but the tab. -/
def isPrintable (c : Char) : Bool := c == '\t' || (' ' ≤ c && c != '\x7f')

/-- A comment, up to the end of its line. -/
def comment : Scan Unit := do
  Scan.char '#'
  Scan.skipWhile isPrintable

/-- What may stand between the items of an array: blanks, line ends and comments. -/
def gap : Scan Unit := do
  let _ ← Scan.many (Scan.takeWhile1 isBlank *> pure () <|> newLine <|> (do comment; newLine))

/-- The end of a line with blanks and a comment in front; also the end of the text. -/
def lineEnd : Scan Unit := do
  blanks
  let _ ← Scan.optional comment
  newLine <|> Scan.atEnd

/-! ### Texts -/

/-- The apostrophe, which encloses literal texts. -/
def apostrophe : Char := '\x27'

/-- A character named by its number, in so many hexadecimal digits. -/
def numbered (count : Nat) : Scan Char := fun cs => do
  let ds := cs.take count
  let n := valueIn 16 ds
  if ds.length = count && ds.all (fun c => (Text.hexValue? c).isSome) && n.isValidChar then
    some (Char.ofNat n, cs.drop count)
  else none

/-- An escape sequence. -/
def escape : Scan Char := do
  Scan.char '\\'
  match ← Scan.next with
  | 'b' => return '\x08'
  | 't' => return '\t'
  | 'n' => return '\n'
  | 'f' => return '\x0c'
  | 'r' => return '\r'
  | '"' => return '"'
  | '\\' => return '\\'
  | 'u' => numbered 4
  | 'U' => numbered 8
  | _ => failure

/-- A character that stands for itself in a basic text. -/
def basicChar : Scan Char := Scan.sat fun c => isPrintable c && c != '"' && c != '\\'

/-- A text in quotes, on one line. -/
def basicText : Scan String := do
  Scan.char '"'
  let cs ← Scan.many (basicChar <|> escape)
  Scan.char '"'
  return String.ofList cs

/-- A text in apostrophes, on one line. -/
def literalText : Scan String := do
  Scan.char apostrophe
  let cs ← Scan.takeWhile fun c => isPrintable c && c != apostrophe
  Scan.char apostrophe
  return String.ofList cs

/-- A backslash at the end of a line, which joins the line to the next visible character. -/
def lineJoin : Scan (List Char) := do
  Scan.char '\\'
  blanks
  newLine
  let _ ← Scan.many (Scan.takeWhile1 isBlank *> pure () <|> newLine)
  return []

/-- A run of fewer than three enclosing characters inside a text of several lines. -/
def innerRun (quote : Char) : Scan (List Char) := do
  let run ← Scan.takeWhile1 (· == quote)
  if run.length < 3 then return run else failure

/-- The closing run of a text of several lines; two more enclosing characters belong to the text. -/
def closingRun (quote : Char) : Scan (List Char) := do
  let run ← Scan.takeWhile1 (· == quote)
  if 3 ≤ run.length && run.length ≤ 5 then return run.drop 3 else failure

/-- A text of several lines between runs of three enclosing characters. A line end right behind the
opening run is left out, and every other one is a line feed. -/
def multiLine (quote : Char) (piece : Scan (List Char)) : Scan String := do
  Scan.word [quote, quote, quote]
  let _ ← Scan.optional newLine
  let pieces ← Scan.many (piece <|> (newLine *> pure ['\n']) <|> innerRun quote)
  return String.ofList (pieces.flatten ++ (← closingRun quote))

/-- A text of several lines with escape sequences. -/
def basicLines : Scan String :=
  multiLine '"' (((· :: []) <$> basicChar) <|> lineJoin <|> ((· :: []) <$> escape))

/-- A text of several lines without escape sequences. -/
def literalLines : Scan String :=
  multiLine apostrophe
    ((· :: []) <$> Scan.sat fun c => isPrintable c && c != apostrophe)

/-- A text of any form. -/
def text : Scan String := basicLines <|> basicText <|> literalLines <|> literalText

/-! ### Keys -/

/-- Whether a character may stand in a bare key. -/
def isBare (c : Char) : Bool := c.isAlphanum || c == '_' || c == '-'

/-- One name of a key. -/
def name : Scan String :=
  (String.ofList <$> Scan.takeWhile1 isBare) <|> basicText <|> literalText

/-- A key: names with dots between them, and blanks around each. -/
def key : Scan (List String) := do
  let names ← Scan.sepBy1 (do blanks; let n ← name; blanks; return n) (Scan.char '.')
  if names.length ≤ maxDepth then return names else failure

/-- A key, an equals sign and a value. -/
def pairWith (value : Scan Tree) : Scan Pair := do
  let names ← key
  Scan.char '='
  blanks
  let v ← value
  match names.getLast? with
  | some n => return ⟨names.dropLast, n, v⟩
  | none => failure

/-! ### Values -/

/-- Whether a character may stand in a number or a moment. -/
def isWordChar (c : Char) : Bool :=
  c.isAlphanum || c == '_' || c == '+' || c == '-' || c == '.' || c == ':'

/-- A word without blanks, or a date and a time with one space between them. -/
def wordChars : Scan (List Char) := do
  let w ← Scan.takeWhile1 isWordChar
  if date? w == some [] then
    let more ← Scan.optional (do
      Scan.char ' '
      let t ← Scan.takeWhile1 isWordChar
      if isTimeWithOffset t then return ' ' :: t else failure)
    return w ++ more.getD []
  else return w

/-- A value that is neither an array nor a table. -/
def scalar : Scan Tree :=
  (Tree.text <$> text) <|> (do
    let w ← wordChars
    if w == ['t', 'r', 'u', 'e'] then return .bool true
    else if w == ['f', 'a', 'l', 's', 'e'] then return .bool false
    else
      match wordTree? w with
      | some t => return t
      | none => failure)

/-- An array. Line ends and comments may stand between its items, and a comma behind the last. -/
def arrayWith (value : Scan Tree) : Scan Tree := do
  Scan.char '['
  gap
  let items ← Scan.optional (Scan.sepBy1 (do gap; let v ← value; gap; return v) (Scan.char ','))
  if items.isSome then
    let _ ← Scan.optional (Scan.char ',')
  gap
  Scan.char ']'
  return .list (items.getD [])

/-- A table on one line. -/
def tableWith (value : Scan Tree) : Scan Tree := do
  Scan.char '\x7b'
  let pairs ← Scan.optional
    (Scan.sepBy1 (do let p ← pairWith value; blanks; return p) (Scan.char ','))
  blanks
  Scan.char '\x7d'
  match inlineTable? (pairs.getD []) with
  | some t => return t
  | none => failure

/-- A value in which arrays and tables nest at most so deeply. -/
def value : Nat → Scan Tree
  | 0 => scalar
  | depth + 1 => arrayWith (value depth) <|> tableWith (value depth) <|> scalar

/-! ### Lines -/

/-- One line of a document. -/
inductive Line
  | blank
  | pair (p : Pair)
  | header (array : Bool) (path : List String)

/-- A header in brackets, doubled for an array of tables. -/
def header : Scan Line :=
  (do
    Scan.word ['[', '[']
    let path ← key
    Scan.word [']', ']']
    return .header true path) <|>
  (do
    Scan.char '['
    let path ← key
    Scan.char ']'
    return .header false path)

/-- A line with its end. The end of the text is no line. -/
def line : Scan Line := do
  if (← Scan.peek).isNone then failure
  blanks
  let l ← header <|> (Line.pair <$> pairWith (value maxDepth)) <|> pure .blank
  lineEnd
  return l

/-- Collects lines, last line first, into pairs and sections. -/
def collect : List Line → List Pair → List Section → Document
  | [], pairs, sections => ⟨pairs, sections⟩
  | .blank :: ls, pairs, sections => collect ls pairs sections
  | .pair p :: ls, pairs, sections => collect ls (p :: pairs) sections
  | .header array path :: ls, pairs, sections => collect ls [] (⟨array, path, pairs⟩ :: sections)

/-- A whole document, possibly behind a byte order mark. -/
def document : Scan Document := do
  let _ ← Scan.optional (Scan.char '\uFEFF')
  let lines ← Scan.many line
  return collect lines.reverse [] []

/-- The tree of a text. -/
def parse? (s : String) : Option Tree := document.run? s >>= Document.tree?

end PadRouter.Toml

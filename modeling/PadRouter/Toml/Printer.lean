import PadRouter.Text.Hex
import PadRouter.Toml.Number

/-!
# Writing TOML

A record is written as a document: first its plain values, then a section for each table and for
each table of an array, with an empty line between sections.

* `Toml.writeText` — a text in the plainest of the four forms that needs no escapes, if there is one.
* `Toml.blocks` — the sections of a record.
* `Toml.render?` — the document, if TOML can hold its values.
-/

namespace PadRouter.Toml

/-! ### Texts -/

/-- The length of the longest run of a character. -/
def longestRun (c : Char) (cs : List Char) : Nat :=
  (cs.foldl (fun (best, run) d =>
    let run := if d = c then run + 1 else 0
    (max best run, run)) (0, 0)).1

/-- Whether a character is a control character other than tab and line feed. -/
def isControl (c : Char) : Bool := (c < ' ' && c != '\t' && c != '\n') || c == '\x7f'

/-- The forms of a text. -/
inductive TextForm
  /-- In quotes, on one line. -/
  | basic
  /-- In apostrophes, on one line. -/
  | literal
  /-- In three quotes. -/
  | basicLines
  /-- In three apostrophes. -/
  | literalLines
  deriving DecidableEq, Repr, Inhabited

/-- The form that a text is written in: the first one that needs no escapes, and else one in
quotes. -/
def TextForm.choose (cs : List Char) : TextForm :=
  let lines := cs.contains '\n'
  let control := cs.any isControl
  let backslash := cs.contains '\\'
  let quotes := longestRun '"' cs
  let apostrophes := longestRun '\x27' cs
  if !control && !backslash && quotes = 0 && !lines then .basic
  else if !control && apostrophes = 0 && !lines then .literal
  else if !control && !backslash && quotes ≤ 2 then .basicLines
  else if !control && apostrophes ≤ 2 then .literalLines
  else if lines then .basicLines
  else .basic

/-- A control character by its number. -/
def controlEscape (c : Char) : List Char :=
  ['\\', 'u'] ++ (Text.hexDigits 4 c.toNat).map Char.toUpper

/-- The characters of a text in quotes. A quote is escaped where more than `free` would stand in a
row; `run` counts those in front. -/
def escaped (lines : Bool) (free : Nat) : Nat → List Char → List Char
  | _, [] => []
  | run, c :: cs =>
    if c = '"' then
      if run < free then '"' :: escaped lines free (run + 1) cs
      else ['\\', '"'] ++ escaped lines free 0 cs
    else
      (if c = '\x08' then ['\\', 'b']
        else if c = '\t' then ['\\', 't']
        else if c = '\n' then if lines then ['\n'] else ['\\', 'n']
        else if c = '\x0c' then ['\\', 'f']
        else if c = '\r' then ['\\', 'r']
        else if c = '\\' then ['\\', '\\']
        else if isControl c then controlEscape c
        else [c]) ++ escaped lines free 0 cs

/-- A text in a form. The forms of several lines begin on a new line if the text has several. -/
def TextForm.write (form : TextForm) (cs : List Char) : List Char :=
  let opening := if cs.contains '\n' then ['\n'] else []
  match form with
  | .basic => ['"'] ++ escaped false 0 0 cs ++ ['"']
  | .literal => ['\x27'] ++ cs ++ ['\x27']
  | .basicLines => ['"', '"', '"'] ++ opening ++ escaped true 2 0 cs ++ ['"', '"', '"']
  | .literalLines =>
    ['\x27', '\x27', '\x27'] ++ opening ++ cs ++ ['\x27', '\x27', '\x27']

/-- A text with its quotes. -/
def writeText (s : String) : List Char := (TextForm.choose s.toList).write s.toList

/-- A key, bare if it can be. -/
def writeName (s : String) : List Char :=
  if !s.isEmpty && s.toList.all (fun c => c.isAlphanum || c == '_' || c == '-') then s.toList
  else ['"'] ++ escaped false 0 0 s.toList ++ ['"']

/-- Names with dots between them. -/
def writePath (path : List String) : List Char := ['.'].intercalate (path.map writeName)

/-! ### Values -/

mutual

/-- A value on one line. -/
def writeValue : Tree → List Char
  | .bool true => "true".toList
  | .bool false => "false".toList
  | .int n => (toString n).toList
  | .text s => writeText s
  | .list items => '[' :: writeItems items ++ [']']
  | .record members => ['\x7b', ' '] ++ writeMembers members ++ [' ', '\x7d']
  | .null | .foreign _ => []

/-- Items with commas between them. -/
def writeItems : List Tree → List Char
  | [] => []
  | [t] => writeValue t
  | t :: rest => writeValue t ++ [',', ' '] ++ writeItems rest

/-- Pairs with commas between them. -/
def writeMembers : List (String × Tree) → List Char
  | [] => []
  | [(n, t)] => writeName n ++ [' ', '=', ' '] ++ writeValue t
  | (n, t) :: rest => writeName n ++ [' ', '=', ' '] ++ writeValue t ++ [',', ' '] ++
      writeMembers rest

/-- Whether TOML can hold a value: its integers have 64 bits with a sign, and nothing is absent but
members of records. -/
def holds : Tree → Bool
  | .bool _ | .text _ => true
  | .int n => fits64 n
  | .list items => holdsAll items
  | .record members => holdsMembers members
  | .null | .foreign _ => false

/-- Whether TOML can hold all items. -/
def holdsAll : List Tree → Bool
  | [] => true
  | t :: rest => holds t && holdsAll rest

/-- Whether TOML can hold all members; absent ones are left out. -/
def holdsMembers : List (String × Tree) → Bool
  | [] => true
  | (_, .null) :: rest => holdsMembers rest
  | (_, t) :: rest => holds t && holdsMembers rest

end

/-! ### Sections -/

/-- Whether a tree is a record. -/
def isRecord : Tree → Bool
  | .record _ => true
  | _ => false

/-- Whether a member gets sections of its own: a record, or a list of records that is not empty. -/
def isSection : Tree → Bool
  | .record _ => true
  | .list items => !items.isEmpty && items.all isRecord
  | _ => false

/-- One section: its header, if it has one, and its values. -/
structure Block where
  /-- Whether the header is one of an array of tables. -/
  array : Bool
  path : List String
  values : List (String × Tree)

/-- The members that are written as values. -/
def plainMembers (members : List (String × Tree)) : List (String × Tree) :=
  members.filter fun m =>
    match m.2 with
    | .null => false
    | t => !isSection t

/-- The section of a table itself. It is left out if all the table has is sections of its own. -/
def ownBlock (array : Bool) (path : List String) (members : List (String × Tree)) : List Block :=
  let values := plainMembers members
  if array || !values.isEmpty || (!path.isEmpty && !members.any fun m => isSection m.2) then
    [⟨array, path, values⟩]
  else []

mutual

/-- The sections of a tree at a path. -/
def blocks (array : Bool) (path : List String) : Tree → List Block
  | .record members => ownBlock array path members ++ memberBlocks path members
  | .list items => if !items.isEmpty && items.all isRecord then elementBlocks path items else []
  | _ => []

/-- The sections of members, in order. -/
def memberBlocks (path : List String) : List (String × Tree) → List Block
  | [] => []
  | (n, t) :: rest => blocks false (path ++ [n]) t ++ memberBlocks path rest

/-- The sections of the tables of an array. -/
def elementBlocks (path : List String) : List Tree → List Block
  | [] => []
  | t :: rest => blocks true path t ++ elementBlocks path rest

end

/-- The lines of a section. -/
def Block.write (b : Block) : List Char :=
  (if b.path.isEmpty then []
    else if b.array then ['[', '['] ++ writePath b.path ++ [']', ']', '\n']
    else ['['] ++ writePath b.path ++ [']', '\n']) ++
  b.values.flatMap fun m => writeName m.1 ++ [' ', '=', ' '] ++ writeValue m.2 ++ ['\n']

/-- A record as a document. -/
def render? (t : Tree) : Option String :=
  if isRecord t && holds t then
    some (String.ofList (['\n'].intercalate ((blocks false [] t).map Block.write)))
  else none

end PadRouter.Toml

import PadRouter.Text.Hex
import PadRouter.Tree.Basic

/-!
# Writing JSON

* `Json.render` — a tree in one line without blanks.
* `Json.renderPretty` — a tree with one member or item to a line, indented by two spaces.
-/

namespace PadRouter.Json

/-- A character inside quotes. Quotes, backslashes and control characters are escaped. -/
def escape (c : Char) : List Char :=
  if c = '"' then ['\\', '"']
  else if c = '\\' then ['\\', '\\']
  else if c = '\x08' then ['\\', 'b']
  else if c = '\t' then ['\\', 't']
  else if c = '\n' then ['\\', 'n']
  else if c = '\x0c' then ['\\', 'f']
  else if c = '\r' then ['\\', 'r']
  else if c < ' ' then ['\\', 'u'] ++ Text.hexDigits 4 c.toNat
  else [c]

/-- A text with its quotes. -/
def quote (s : String) : List Char := '"' :: s.toList.flatMap escape ++ ['"']

/-- A leaf. A foreign leaf has no form of its own and is written as `null`. -/
def leaf : Tree → List Char
  | .bool true => ['t', 'r', 'u', 'e']
  | .bool false => ['f', 'a', 'l', 's', 'e']
  | .int n => (toString n).toList
  | .text s => quote s
  | _ => ['n', 'u', 'l', 'l']

mutual

/-- A tree in one line. -/
def write : Tree → List Char
  | .list items => '[' :: writeItems items ++ [']']
  | .record members => '{' :: writeMembers members ++ ['}']
  | .null => leaf .null
  | .bool b => leaf (.bool b)
  | .int n => leaf (.int n)
  | .text s => leaf (.text s)
  | .foreign k => leaf (.foreign k)

/-- Items with commas between them. -/
def writeItems : List Tree → List Char
  | [] => []
  | [t] => write t
  | t :: rest => write t ++ ',' :: writeItems rest

/-- Members with commas between them. -/
def writeMembers : List (String × Tree) → List Char
  | [] => []
  | [(n, t)] => quote n ++ ':' :: write t
  | (n, t) :: rest => quote n ++ ':' :: write t ++ ',' :: writeMembers rest

end

/-- A tree in one line without blanks. -/
def render (t : Tree) : String := String.ofList (write t)

/-! ### With indentation -/

/-- A new line at a level of nesting. -/
def newLine (level : Nat) : List Char := '\n' :: List.replicate (2 * level) ' '

mutual

/-- A tree at a level of nesting, with one item or member to a line. -/
def writePretty (level : Nat) : Tree → List Char
  | .list [] => ['[', ']']
  | .list items =>
    '[' :: newLine (level + 1) ++ prettyItems (level + 1) items ++ newLine level ++ [']']
  | .record [] => ['{', '}']
  | .record members =>
    '{' :: newLine (level + 1) ++ prettyMembers (level + 1) members ++ newLine level ++ ['}']
  | .null => leaf .null
  | .bool b => leaf (.bool b)
  | .int n => leaf (.int n)
  | .text s => leaf (.text s)
  | .foreign k => leaf (.foreign k)

/-- Items, one to a line. -/
def prettyItems (level : Nat) : List Tree → List Char
  | [] => []
  | [t] => writePretty level t
  | t :: rest => writePretty level t ++ ',' :: newLine level ++ prettyItems level rest

/-- Members, one to a line. -/
def prettyMembers (level : Nat) : List (String × Tree) → List Char
  | [] => []
  | [(n, t)] => quote n ++ [':', ' '] ++ writePretty level t
  | (n, t) :: rest =>
    quote n ++ [':', ' '] ++ writePretty level t ++ ',' :: newLine level ++
      prettyMembers level rest

end

/-- A tree with one member or item to a line, indented by two spaces. -/
def renderPretty (t : Tree) : String := String.ofList (writePretty 0 t)

end PadRouter.Json

import PadRouter.Tree.Basic

/-!
# TOML documents

A TOML text is a list of pairs under headers. Which headers and dotted keys may meet in one table is
the subject of this module; the text itself is read elsewhere.

* `Node` — a value, a table, or an array of tables, while a document grows.
* `Node.assign` — sets a key, possibly a dotted one.
* `Node.addSection` — adds the pairs under one header.
* `Document.tree?` — the tree of a whole document.
-/

namespace PadRouter.Toml

/-- How a table has come to be. -/
inductive Origin
  /-- By a header of its own, or as a value. -/
  | header
  /-- As a part of a longer header. -/
  | implied
  /-- As a part of a dotted key. -/
  | dotted
  deriving DecidableEq, Repr, Inhabited

/-- What stands at a key while a document grows. -/
inductive Node
  | value (t : Tree)
  | table (origin : Origin) (entries : List (String × Node))
  /-- An array of tables. Its last table is the one that later headers reach. -/
  | tables (earlier : List (List (String × Node))) (last : List (String × Node))
  deriving Inhabited

/-- A key with the names in front of its last dot, and its value. -/
structure Pair where
  path : List String
  name : String
  value : Tree

namespace Node

/-- The node at a key. -/
def lookup (name : String) : List (String × Node) → Option Node
  | [] => none
  | (n, node) :: rest => if n = name then some node else lookup name rest

/-- Puts a node at a key that is there already. -/
def update (name : String) (node : Node) (entries : List (String × Node)) : List (String × Node) :=
  entries.map fun e => if e.1 = name then (name, node) else e

/-- The entries without a key. -/
def erase (name : String) (entries : List (String × Node)) : List (String × Node) :=
  entries.filter fun e => e.1 != name

/-- Sets a key to a value. The key must be new. A dotted key makes the tables on its way and may
extend tables made by dotted keys; it may pass through a table that a longer header implies, but it
may not end there, and it may not touch a table that has a header of its own. -/
def assign : List String → String → Tree → List (String × Node) → Option (List (String × Node))
  | [], name, v, entries =>
    match lookup name entries with
    | none => some (entries ++ [(name, .value v)])
    | some _ => none
  | p :: path, name, v, entries =>
    match lookup p entries with
    | none => do return entries ++ [(p, .table .dotted (← assign path name v []))]
    | some (.value _) => none
    | some (.tables earlier last) =>
      if path.isEmpty then none
      else do return update p (.tables earlier (← assign path name v last)) entries
    | some (.table origin inner) =>
      if origin = .header || (path.isEmpty && origin != .dotted) then none
      else do return update p (.table origin (← assign path name v inner)) entries

/-- Sets the keys of pairs, one after the other. -/
def fill (pairs : List Pair) (entries : List (String × Node)) : Option (List (String × Node)) :=
  pairs.foldlM (fun es p => assign p.path p.name p.value es) entries

/-- Adds the pairs under one header. A table may get its header after a longer one has implied it,
but only once; a header of an array adds one more table to it. -/
def addSection (array : Bool) (pairs : List Pair) :
    List String → List (String × Node) → Option (List (String × Node))
  | [], _ => none
  | [name], entries =>
    match array, lookup name entries with
    | true, none => do return entries ++ [(name, .tables [] (← fill pairs []))]
    | true, some (.tables earlier last) => do
      return update name (.tables (earlier ++ [last]) (← fill pairs [])) entries
    | false, none => do return entries ++ [(name, .table .header (← fill pairs []))]
    | false, some (.table .implied inner) => do
      return erase name entries ++ [(name, .table .header (← fill pairs inner))]
    | _, some _ => none
  | p :: path, entries =>
    match lookup p entries with
    | none => do return entries ++ [(p, .table .implied (← addSection array pairs path []))]
    | some (.value _) => none
    | some (.tables earlier last) => do
      return update p (.tables earlier (← addSection array pairs path last)) entries
    | some (.table origin inner) => do
      return update p (.table origin (← addSection array pairs path inner)) entries

mutual

/-- The tree of a node. -/
def toTree : Node → Tree
  | .value t => t
  | .table _ entries => .record (members entries)
  | .tables earlier last => .list (elements earlier ++ [.record (members last)])

/-- The members of a record. -/
def members : List (String × Node) → List (String × Tree)
  | [] => []
  | (n, node) :: rest => (n, toTree node) :: members rest

/-- The elements of an array of tables. -/
def elements : List (List (String × Node)) → List Tree
  | [] => []
  | entries :: rest => .record (members entries) :: elements rest

end

end Node

/-- The pairs under one header. -/
structure Section where
  /-- Whether the header is one of an array of tables. -/
  array : Bool
  path : List String
  pairs : List Pair

/-- The pairs in front of all headers, and the sections. -/
structure Document where
  top : List Pair
  sections : List Section

/-- The tree of a document, if its headers and keys go together. -/
def Document.tree? (d : Document) : Option Tree := do
  let entries ← Node.fill d.top []
  let entries ← d.sections.foldlM (fun es s => Node.addSection s.array s.pairs s.path es) entries
  return .record (Node.members entries)

/-- The tree of a table that is written as a value. -/
def inlineTable? (pairs : List Pair) : Option Tree := do
  return .record (Node.members (← Node.fill pairs []))

end PadRouter.Toml

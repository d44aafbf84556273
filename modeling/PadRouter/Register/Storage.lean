import PadRouter.Folder
import PadRouter.Json.Parser
import PadRouter.Json.Printer
import PadRouter.Tree.Stored

/-!
# Keeping the register in files

A register is kept as a JSON list of its records.

* `Register.toJson` — the text of all records, in their order.
* `Register.mergeJson` — puts the records of a text in; a text that is no list of records changes
  nothing.
* `Register.load`, `Register.save` — the same with a file.
-/

namespace PadRouter

/-- Why records cannot be read or written. -/
inductive RegisterError
  /-- The file cannot be used. -/
  | file (path : String) (cause : AccessError)
  /-- The text is no list of records. -/
  | malformed
  deriving DecidableEq, Repr

/-- The wording of the error. -/
def RegisterError.message : RegisterError → String
  | file path cause => "cannot access device database " ++ path ++ ": " ++ cause.message
  | malformed => "malformed device database"

namespace Register

/-- The text of all records. -/
def toJson (r : Register) : String := Json.renderPretty (toTree r.records)

/-- The records of a text. -/
def recordsOfJson? (text : String) : Option (List Record) :=
  Json.parse? text >>= Storable.ofTree? Json.dialect

/-- Puts the records of a text in, and tells how many there are. -/
def mergeJson (r : Register) (text : String) : Except RegisterError (Register × Nat) :=
  match recordsOfJson? text with
  | some records => .ok (r.merge records, records.length)
  | none => .error .malformed

/-- Puts the records of a file in, and tells how many there are. -/
def load (r : Register) (folder : Folder) (path : String) :
    Except RegisterError (Register × Nat) :=
  match folder.readText path with
  | .ok text => r.mergeJson text
  | .error cause => .error (.file path cause)

/-- Writes all records to a file. -/
def save (r : Register) (folder : Folder) (path : String) : Except RegisterError Folder :=
  (folder.writeText path r.toJson).mapError (.file path)

end Register

end PadRouter

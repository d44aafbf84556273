import PadRouter.Table
import PadRouter.Text.Utf8

/-!
# A folder with files

Names are relative to the folder. They lead part by part through the folders inside it, and two
dots lead back out of one.

* `Folder` — the files and the inner folders, by the way that leads to each.
* `Folder.locate` — where a name leads; every folder that it passes has to be there.
* `Folder.readText`, `Folder.writeText` — reading and writing; either may be refused.
* `AccessError` — why a file cannot be read or written.
* `Folder.read_of_write` — what is written under a name is read under that name.
-/

namespace PadRouter

/-- Why a file cannot be read or written. -/
inductive AccessError
  /-- There is no such file, or no folder to hold it. -/
  | notFound
  /-- There is a file where the name needs a folder. -/
  | notFolder
  /-- There is a folder of this name. -/
  | isFolder
  /-- The file does not hold text. -/
  | notText
  deriving DecidableEq, Repr

/-- The wording of the error. -/
def AccessError.message : AccessError → String
  | notFound => "No such file or directory (os error 2)"
  | notFolder => "Not a directory (os error 20)"
  | isFolder => "Is a directory (os error 21)"
  | notText => "stream did not contain valid UTF-8"

/-- What is at the end of a way. -/
inductive Entry
  | file (bytes : List UInt8)
  | folder
  deriving DecidableEq, Repr, Inhabited

/-- The inner folders to go through, from the outside in, and the last name. -/
abbrev Way := List String

/-- The way out: one folder less, or one more step outwards where no folder is left. -/
def Way.up (here : Way) : Way :=
  if here.all (· == "..") then here ++ [".."] else here.dropLast

/-- The way on from `here` by one part of a name: a dot stays, two dots lead out. -/
def Way.step (here : Way) (part : String) : Way :=
  if part = "." then here else if part = ".." then here.up else here ++ [part]

/-- Where a name leads. -/
structure Target where
  way : Way
  /-- Whether the name is written as that of a folder. -/
  asFolder : Bool

/-- The files and the inner folders, by the way that leads to each. -/
structure Folder where
  entries : Table Way Entry := {}

namespace Folder

instance : Inhabited Folder := ⟨{}⟩

/-! ### Names -/

/-- The parts of a name; empty ones lead nowhere. -/
def parts (name : String) : List String := (name.splitOn "/").filter (· != "")

/-- What is at the end of a way. The folder itself and those around it are always there. -/
def get? (f : Folder) (way : Way) : Option Entry :=
  if way.all (· == "..") then some .folder else f.entries.get? way

/-- Goes on from `here` by some parts; each has to lead to a folder. -/
def walk (f : Folder) (here : Way) : List String → Except AccessError Way
  | [] => .ok here
  | part :: rest =>
    match f.get? (here.step part) with
    | some .folder => f.walk (here.step part) rest
    | some (.file _) => .error .notFolder
    | none => .error .notFound

/-- Where a name leads. Whether something is there is left open; the folder around it is. -/
def locate (f : Folder) (name : String) : Except AccessError Target :=
  if name = "" then .error .notFound
  else
    let last := (parts name).getLastD "."
    (f.walk [] (parts name).dropLast).map fun around =>
      { way := around.step last
        asFolder := last == "." || last == ".." || name.endsWith "/" }

/-! ### Reading and writing -/

/-- The bytes of a file. -/
def read (f : Folder) (name : String) : Except AccessError (List UInt8) := do
  let target ← f.locate name
  match f.get? target.way with
  | some (.file bytes) => if target.asFolder then .error .notFolder else .ok bytes
  | some .folder => .error .isFolder
  | none => .error .notFound

/-- The text of a file. -/
def readText (f : Folder) (name : String) : Except AccessError String := do
  let bytes ← f.read name
  (Utf8.decode? bytes).elim (.error .notText) .ok

/-- Puts an entry at the end of a way. -/
def put (f : Folder) (way : Way) (entry : Entry) : Folder := ⟨f.entries.insert way entry⟩

/-- Writes a file, in place of the one that is there. The folder around it has to exist. -/
def write (f : Folder) (name : String) (bytes : List UInt8) : Except AccessError Folder := do
  let target ← f.locate name
  if target.asFolder || f.get? target.way = some .folder then .error .isFolder
  else .ok (f.put target.way (.file bytes))

/-- Writes a text to a file. -/
def writeText (f : Folder) (name : String) (s : String) : Except AccessError Folder :=
  f.write name (Utf8.encode s)

/-- Makes the folders that some parts lead through from `here`, up to the first file. -/
def makeAlong (f : Folder) (here : Way) : List String → Folder
  | [] => f
  | part :: rest =>
    match f.get? (here.step part) with
    | some .folder => f.makeAlong (here.step part) rest
    | some (.file _) => f
    | none => (f.put (here.step part) .folder).makeAlong (here.step part) rest

/-- Makes an inner folder and those around it; what is there already stays. -/
def makeFolder (f : Folder) (name : String) : Folder := f.makeAlong [] (parts name)

/-! ### What is written is read -/

theorem get?_put (f : Folder) (way way' : Way) (entry : Entry) :
    (f.put way entry).get? way' =
      if way'.all (· == "..") then some .folder
      else if way = way' then some entry else f.get? way' := by
  unfold get? put
  split
  · rfl
  · rw [Table.get?_insert]
    grind

/-- An entry in a place that held no folder is on no way through folders. -/
theorem walk_put {f : Folder} {way here there : Way} {entry : Entry} {ps : List String}
    (free : f.get? way ≠ some .folder) (h : f.walk here ps = .ok there) :
    (f.put way entry).walk here ps = .ok there := by
  induction ps generalizing here with
  | nil => exact h
  | cons part rest ih =>
    rw [walk] at h ⊢
    split at h
    next hf =>
      have : (f.put way entry).get? (here.step part) = some .folder := by
        rw [get?_put]
        grind
      rw [this]
      exact ih h
    · cases h
    · cases h

theorem locate_put {f : Folder} {way : Way} {entry : Entry} {name : String} {target : Target}
    (free : f.get? way ≠ some .folder) (h : f.locate name = .ok target) :
    (f.put way entry).locate name = .ok target := by
  unfold locate at h ⊢
  split at h
  · cases h
  next hn =>
    cases hw : f.walk [] (parts name).dropLast with
    | error e => simp [hw, Except.map] at h
    | ok around => simpa [hn, hw, walk_put free hw] using h

/-- What is written under a name is read under that name. -/
theorem read_of_write {f g : Folder} {name : String} {bytes : List UInt8}
    (h : f.write name bytes = .ok g) : g.read name = .ok bytes := by
  unfold write at h
  cases ht : f.locate name with
  | error e => simp [ht, bind, Except.bind] at h
  | ok target =>
    simp only [ht, bind, Except.bind] at h
    split at h
    · cases h
    next hfree =>
      simp only [Bool.or_eq_true, decide_eq_true_eq, not_or, Bool.not_eq_true] at hfree
      obtain rfl := Except.ok.inj h
      have outside : ¬ target.way.all (· == "..") = true := fun ho => hfree.2 (by simp [get?, ho])
      simp [read, locate_put hfree.2 ht, get?_put, outside, hfree.1, bind, Except.bind]

end Folder

end PadRouter

import PadRouter.Report.Decoder

/-!
# Opening a device file

* `DeviceFile` — what the host says of the file behind a device.
* `HostCall` — the calls to the host that have to be paired.
* `DeviceFile.open?` — makes the decoder of a device; whatever was opened on the way is closed again
  if there is none.
-/

namespace PadRouter

/-- How a file may be opened. -/
inductive FileAccess
  | readWrite
  | readOnly
  | refused
  deriving DecidableEq, Repr, Inhabited

/-- What the host says of the file behind a device. -/
structure DeviceFile where
  access : FileAccess := .readWrite
  /-- Whether the descriptor can be read. -/
  readable : Bool := true
  /-- What the descriptor declares, if the host can tell. -/
  capabilities : Option Capabilities
  queries : ReportQueries
  deriving Inhabited

/-- Calls to the host that open something or close it again. -/
inductive HostCall
  /-- Opens a file for reading and writing. -/
  | openReadWrite (ok : Bool)
  /-- Opens a file for reading. -/
  | openReadOnly (ok : Bool)
  /-- Gives the descriptor back. -/
  | freeDescriptor
  /-- Closes the file. -/
  | closeFile
  deriving DecidableEq, Repr

/-- The status that the host reports for a file that cannot be opened. -/
def accessDenied : Nat := 5

/-- What comes of opening a device file. -/
structure Opening where
  decoder : Option ReportDecoder := none
  calls : List HostCall
  notices : List Notice := []

namespace DeviceFile

/-- Opens a file, for writing too if possible. The result says whether it is open now. -/
def openCalls (file : Option DeviceFile) : Bool × List HostCall :=
  match (file.map access).getD .refused with
  | .readWrite => (true, [.openReadWrite true])
  | .readOnly => (true, [.openReadWrite false, .openReadOnly true])
  | .refused => (false, [.openReadWrite false, .openReadOnly false])

/-- The calls that end the use of an open file with its descriptor. -/
def release : List HostCall := [.freeDescriptor, .closeFile]

/-- Makes the decoder for the device behind a file. There is none if the file cannot be opened, if
its descriptor cannot be read, or if the descriptor declares neither buttons nor values. -/
def open? (path : String) (vendor product : UInt16) (file : Option DeviceFile) : Opening :=
  let opened := openCalls file
  match opened.1, file with
  | true, some f =>
    if f.readable then
      match f.capabilities with
      | none => { calls := opened.2 ++ release }
      | some c =>
        match FieldMap.ofCapabilities? c with
        | none => { calls := opened.2 ++ release }
        | some map =>
          { decoder := some (.new map f.queries)
            calls := opened.2
            notices :=
              [.fieldMapBuilt vendor product c.reportIds map.buttons.length map.values.length] }
    else { calls := opened.2 ++ [.closeFile] }
  | _, _ => { calls := opened.2, notices := [.fileRefused path accessDenied] }

end DeviceFile

end PadRouter

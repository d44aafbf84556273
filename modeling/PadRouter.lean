import PadRouter.Action
import PadRouter.Activity
import PadRouter.Config
import PadRouter.Config.Storage
import PadRouter.Console
import PadRouter.Device
import PadRouter.Element.Axis
import PadRouter.Element.Basic
import PadRouter.Element.ReadingDecoder
import PadRouter.Element.Role
import PadRouter.Element.Usage
import PadRouter.Folder
import PadRouter.Json.Parser
import PadRouter.Json.Printer
import PadRouter.Key.Basic
import PadRouter.Key.HeldKeys
import PadRouter.Key.KeyMap
import PadRouter.Main
import PadRouter.Notice
import PadRouter.Outcome
import PadRouter.Pad
import PadRouter.Port
import PadRouter.Proofs.Element.History
import PadRouter.Proofs.Pad.Command
import PadRouter.Proofs.Report.Buttons
import PadRouter.Proofs.Router.Command
import PadRouter.Proofs.Router.Devices
import PadRouter.Proofs.Router.Hosted
import PadRouter.Proofs.Router.Ports
import PadRouter.Proofs.Router.Room
import PadRouter.Proofs.Router.Seats
import PadRouter.Proofs.Router.Slots
import PadRouter.Proofs.Watcher.Arrivals
import PadRouter.Proofs.Watcher.Line
import PadRouter.Proofs.Watcher.Poll
import PadRouter.Proofs.Watcher.Readings
import PadRouter.Register
import PadRouter.Register.Storage
import PadRouter.Report.Decoder
import PadRouter.Report.DeviceFile
import PadRouter.Report.FieldMap
import PadRouter.Report.FieldValue
import PadRouter.Report.Layout
import PadRouter.Router
import PadRouter.Router.EventQueue
import PadRouter.Router.Snapshot
import PadRouter.Router.Startup
import PadRouter.Scheme
import PadRouter.Table
import PadRouter.Text.Decimal
import PadRouter.Text.Hex
import PadRouter.Text.Scan
import PadRouter.Text.Utf8
import PadRouter.Toml.Document
import PadRouter.Toml.Number
import PadRouter.Toml.Parser
import PadRouter.Toml.Printer
import PadRouter.Tree.Basic
import PadRouter.Tree.Stored
import PadRouter.Watcher
import PadRouter.Watcher.Host
import PadRouter.Proofs.Key.Latches
import PadRouter.Proofs.Router.Keys
import PadRouter.Proofs.Router.Calls
import PadRouter.Proofs.Router.Arrival
import PadRouter.Proofs.Router.Hush
import PadRouter.Proofs.Router.Publishing
import PadRouter.Proofs.Pad.Port
import PadRouter.Proofs.Router.Interleavings
import PadRouter.Proofs.Router.Rebinding
import PadRouter.Proofs.Element.Hysteresis
import PadRouter.Proofs.Element.Joystick
import PadRouter.Proofs.Report.Changes
import PadRouter.Proofs.Report.DegreeHats
import PadRouter.Proofs.Text.Scan
import PadRouter.Proofs.Text.Digits
import PadRouter.Proofs.Text.Utf8
import PadRouter.Proofs.Json.Leaves
import PadRouter.Proofs.Json.Spelling
import PadRouter.Proofs.Json.RoundTrip
import PadRouter.Proofs.Tree.Trimming
import PadRouter.Proofs.Tree.Restoring
import PadRouter.Proofs.Key.Edits
import PadRouter.Proofs.Table.Order
import PadRouter.Proofs.Key.OneToOne
import PadRouter.Proofs.Activity.Deliveries
import PadRouter.Proofs.Register.FiniteMap
import PadRouter.Proofs.Toml.Texts
import PadRouter.Proofs.Toml.Values
import PadRouter.Proofs.Toml.Lines
import PadRouter.Proofs.Toml.Sections
import PadRouter.Proofs.Toml.RoundTrip
import PadRouter.Proofs.Router.Requests
import PadRouter.Proofs.Element.Components
import PadRouter.Proofs.Router.KeyEvents
import PadRouter.Proofs.Router.Return
import PadRouter.Proofs.Element.Steadiness
import PadRouter.Proofs.Key.Loading
import PadRouter.Proofs.Key.Modifiers
import PadRouter.Proofs.Router.Refresh
import PadRouter.Proofs.Report.Sectors
import PadRouter.Proofs.Report.Words
import PadRouter.Proofs.Router.Batches
import PadRouter.Proofs.Watcher.Framing
import PadRouter.Proofs.Register.Revision
import PadRouter.Proofs.Folder.Saving

import Knitting.Carrier.Basic
import Knitting.Carrier.Hook
import Knitting.Carrier.Table
import Knitting.CommandLine.Arguments
import Knitting.CommandLine.Directory
import Knitting.CommandLine.Log
import Knitting.CommandLine.Session
import Knitting.Error
import Knitting.Event
import Knitting.Fabric
import Knitting.Geometry
import Knitting.Height
import Knitting.Instruction
import Knitting.Json.Decode
import Knitting.Json.Encode
import Knitting.Json.Numeral
import Knitting.Json.Reader
import Knitting.Json.Value
import Knitting.Machine
import Knitting.Main
import Knitting.Needle.Basic
import Knitting.Needle.Slot
import Knitting.Needle.Syntax
import Knitting.Number.Binary
import Knitting.Number.Layout
import Knitting.Number.Shortest
import Knitting.Pass.Basic
import Knitting.Pass.Kind
import Knitting.Pass.Schedule
import Knitting.Program
import Knitting.Racking
import Knitting.Scalar
import Knitting.Stitch
import Knitting.Table
import Knitting.Text.Blank
import Knitting.Text.Digit
import Knitting.Text.Line
import Knitting.Yarn.Row
import Knitting.Yarn.Store
import Knitting.Proofs.Fabric.Continuity
import Knitting.Proofs.Fabric.Holding
import Knitting.Proofs.Number.Half
import Knitting.Proofs.Pass.Kicks
import Knitting.Proofs.Carrier.Table
import Knitting.Proofs.Needle.Slot
import Knitting.Proofs.Pass.Work
import Knitting.Proofs.Pass.Cascade
import Knitting.Proofs.Machine.Effect
import Knitting.Proofs.Machine.Reach
import Knitting.Proofs.Machine.Kicks
import Knitting.Proofs.Machine.Waiting
import Knitting.Proofs.Pass.Blocks
import Knitting.Proofs.Machine.Legal
import Knitting.Proofs.Machine.Calls
import Knitting.Proofs.Program.Lanes
import Knitting.Proofs.Machine.Session
import Knitting.Proofs.Machine.Skipped
import Knitting.Proofs.Machine.Independence
import Knitting.Proofs.Program.Prefix
import Knitting.Proofs.Mirror.Session
import Knitting.Proofs.Machine.Failure
import Knitting.Proofs.Machine.Valid
import Knitting.Proofs.Machine.BringIns
import Knitting.Proofs.Yarn.Sweep
import Knitting.Proofs.Fabric.Chronology
import Knitting.Proofs.Fabric.Frame
import Knitting.Proofs.Number.Exact
import Knitting.Proofs.Fabric.Clearance
import Knitting.Proofs.Fabric.Transfer
import Knitting.Proofs.Fabric.Commute
import Knitting.Proofs.Pass.Bare
import Knitting.Proofs.Machine.Merged
import Knitting.Proofs.Machine.LifeCycle
import Knitting.Proofs.Machine.Reorder
import Knitting.Proofs.Program.HashOrder
import Knitting.Proofs.Bounds.Program
import Knitting.Proofs.Pass.Absorb
import Knitting.Proofs.Yarn.Records
import Knitting.Proofs.Height.History
import Knitting.Proofs.Needle.Alignment
import Knitting.Proofs.Program.FirstUses
import Knitting.Proofs.Needle.Syntax
import Knitting.Proofs.Program.Comments

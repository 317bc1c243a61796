import Cinematic.Bytecode.Cursor
import Cinematic.Bytecode.Decode
import Cinematic.Bytecode.Format
import Cinematic.Bytecode.Instruction
import Cinematic.Bytecode.Listing
import Cinematic.Bytecode.Opcode
import Cinematic.Bytes
import Cinematic.CommandLine.Argument
import Cinematic.CommandLine.Command
import Cinematic.CommandLine.Help
import Cinematic.CommandLine.Outcome
import Cinematic.CommandLine.Reach
import Cinematic.CommandLine.Scan
import Cinematic.CommandLine.Settings
import Cinematic.FileTree.Basic
import Cinematic.FileTree.Path
import Cinematic.Host.Basic
import Cinematic.Host.Recorder
import Cinematic.Host.Rehearsal
import Cinematic.Host.Trace
import Cinematic.Log.Directive
import Cinematic.Log.Entry
import Cinematic.Log.Filter
import Cinematic.Log.Pattern.Basic
import Cinematic.Log.Pattern.Escape
import Cinematic.Log.Pattern.Modes
import Cinematic.Log.Pattern.Set
import Cinematic.Log.Pattern.Value
import Cinematic.Machine.CallStack
import Cinematic.Machine.Controls
import Cinematic.Machine.Error
import Cinematic.Machine.Execute
import Cinematic.Machine.Pacer
import Cinematic.Machine.Pass
import Cinematic.Machine.RegisterFile
import Cinematic.Machine.State
import Cinematic.Machine.Thread
import Cinematic.Main
import Cinematic.MemoryList.Basic
import Cinematic.MemoryList.Totals
import Cinematic.Packing.Error
import Cinematic.Packing.Layout
import Cinematic.Packing.Match
import Cinematic.Packing.Pack
import Cinematic.Packing.Token
import Cinematic.Packing.Unpack
import Cinematic.Part
import Cinematic.Proofs.Bytecode.Colour
import Cinematic.Proofs.Bytecode.Decode
import Cinematic.Proofs.Bytecode.Exactness
import Cinematic.Proofs.Bytecode.Extent
import Cinematic.Proofs.Bytecode.Sweep
import Cinematic.Proofs.Bytecode.Table
import Cinematic.Proofs.Bytes
import Cinematic.Proofs.CommandLine.Naming
import Cinematic.Proofs.Computation
import Cinematic.Proofs.FileTree.Keeping
import Cinematic.Proofs.FileTree.Writing
import Cinematic.Proofs.Host.Alike
import Cinematic.Proofs.Host.Colour
import Cinematic.Proofs.Host.Tally
import Cinematic.Proofs.Machine.Bypass
import Cinematic.Proofs.Machine.Comparison
import Cinematic.Proofs.Machine.Countdown
import Cinematic.Proofs.Machine.Deadlines
import Cinematic.Proofs.Machine.Effect
import Cinematic.Proofs.Machine.Ending
import Cinematic.Proofs.Machine.Execution
import Cinematic.Proofs.Machine.Footprint
import Cinematic.Proofs.Machine.Fuel
import Cinematic.Proofs.Machine.Life
import Cinematic.Proofs.Machine.Media
import Cinematic.Proofs.Machine.Nesting
import Cinematic.Proofs.Machine.Pacing
import Cinematic.Proofs.Machine.Point
import Cinematic.Proofs.Machine.Requests
import Cinematic.Proofs.Machine.Rest
import Cinematic.Proofs.Machine.Restart
import Cinematic.Proofs.Machine.Schedule
import Cinematic.Proofs.Machine.Sliding
import Cinematic.Proofs.Machine.Stop
import Cinematic.Proofs.Machine.Threads
import Cinematic.Proofs.Machine.Typing
import Cinematic.Proofs.MemoryList.Exactness
import Cinematic.Proofs.MemoryList.Table
import Cinematic.Proofs.MemoryList.Totals
import Cinematic.Proofs.Packing.Containment
import Cinematic.Proofs.Packing.Exactness
import Cinematic.Proofs.Packing.Fields
import Cinematic.Proofs.Packing.Format
import Cinematic.Proofs.Packing.Greedy
import Cinematic.Proofs.Packing.InPlace
import Cinematic.Proofs.Packing.Layout
import Cinematic.Proofs.Packing.LockStep
import Cinematic.Proofs.Packing.Progress
import Cinematic.Proofs.Packing.RoundTrip
import Cinematic.Proofs.Packing.Search
import Cinematic.Proofs.Packing.Watch
import Cinematic.Proofs.Session.Accounts
import Cinematic.Proofs.Session.Consistency
import Cinematic.Proofs.Session.Media
import Cinematic.Proofs.Store.Asking
import Cinematic.Proofs.Store.Bank
import Cinematic.Proofs.Store.Checking
import Cinematic.Proofs.Store.Dumping
import Cinematic.Proofs.Store.Loading
import Cinematic.Proofs.Store.Parts
import Cinematic.Proofs.Store.Reading
import Cinematic.Proofs.Text.Escape
import Cinematic.Proofs.Text.Numeral
import Cinematic.Register
import Cinematic.Resource
import Cinematic.Session.Basic
import Cinematic.Session.Stage
import Cinematic.Session.Summary
import Cinematic.Store.Basic
import Cinematic.Store.Library
import Cinematic.Text.Alphanumeric
import Cinematic.Text.Blank
import Cinematic.Text.Hundredths
import Cinematic.Text.Ink
import Cinematic.Text.Json
import Cinematic.Text.Numeral
import Cinematic.Text.Offset
import Cinematic.Text.Pad
import Cinematic.Text.Split

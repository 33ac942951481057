import ChipEight.CommandLine
import ChipEight.CommandLine.Help
import ChipEight.Main
import ChipEight.Picture.Png
import ChipEight.Snapshot.Diff
import ChipEight.Proofs.Machine.Sprite
import ChipEight.Proofs.Machine.Block
import ChipEight.Proofs.Machine.Effect
import ChipEight.Proofs.Machine.Step
import ChipEight.Proofs.Console.Atomicity
import ChipEight.Proofs.Memory.Bytes
import ChipEight.Proofs.Memory.Reserved
import ChipEight.Proofs.Machine.WellFormed
import ChipEight.Proofs.Session.Reachable
import ChipEight.Proofs.Session.WellFormed
import ChipEight.Proofs.Instruction.Coding
import ChipEight.Proofs.Machine.CallStack
import ChipEight.Proofs.Console.CallStack
import ChipEight.Proofs.Machine.Classification
import ChipEight.Proofs.Session.Classification
import ChipEight.Proofs.Machine.Word
import ChipEight.Proofs.Console.Course
import ChipEight.Proofs.Console.PowerOn
import ChipEight.Proofs.Console.Alike
import ChipEight.Proofs.Session.Course
import ChipEight.Proofs.Session.Invariant
import ChipEight.Proofs.Session.Screen
import ChipEight.Proofs.Session.RandomStream
import ChipEight.Proofs.Session.Alike
import ChipEight.Proofs.Session.Queue
import ChipEight.Proofs.Session.Limit
import ChipEight.Proofs.Session.History
import ChipEight.Proofs.Session.Account
import ChipEight.Proofs.Session.Unattended
import ChipEight.Proofs.Trace.Delivery
import ChipEight.Proofs.Console.Trace
import ChipEight.Proofs.Trace.Stream
import ChipEight.Proofs.Machine.Pixel
import ChipEight.Proofs.Machine.Inputs
import ChipEight.Proofs.Console.Drawing
import ChipEight.Proofs.Console.Inputs
import ChipEight.Proofs.Console.Runs
import ChipEight.Proofs.Console.Dumps
import ChipEight.Proofs.CommandLine.Text
import ChipEight.Proofs.CommandLine.Run
import ChipEight.Proofs.Session.Timers
import ChipEight.Proofs.Machine.Frame
import ChipEight.Proofs.Session.Frame
import ChipEight.Proofs.Machine.Route
import ChipEight.Proofs.Session.Route
import ChipEight.Proofs.Text.Hex
import ChipEight.Proofs.Instruction.Form
import ChipEight.Proofs.Instruction.Text
import ChipEight.Proofs.Machine.Mnemonic
import ChipEight.Proofs.Session.Mnemonic
import ChipEight.Proofs.Machine.Arithmetic
import ChipEight.Proofs.Machine.Transfer
import ChipEight.Proofs.Machine.Bounds
import ChipEight.Proofs.Session.Bounds
import ChipEight.Proofs.Memory.InPlace
import ChipEight.Proofs.Memory.Operation
import ChipEight.Proofs.Memory.History
import ChipEight.Proofs.Snapshot.Diff
import ChipEight.Proofs.Snapshot.Dump
import ChipEight.Proofs.Picture.Text
import ChipEight.Proofs.Picture.Image
import ChipEight.Proofs.Json.Scalar
import ChipEight.Proofs.Json.Nested
import ChipEight.Proofs.Config.File
import ChipEight.Proofs.Session.Configured
import ChipEight.Proofs.Config.Layers
import ChipEight.Proofs.CommandLine.Precedence
import ChipEight.Proofs.Listing.Entries
import ChipEight.Proofs.Console.Listing
import ChipEight.Proofs.Memory.Journal
import ChipEight.Proofs.Machine.Journal
import ChipEight.Proofs.Session.Journal
import ChipEight.Proofs.Keypad.Operation
import ChipEight.Proofs.Machine.KeyWait
import ChipEight.Proofs.Session.KeyWait
import ChipEight.Proofs.Trace.Account
import ChipEight.Proofs.Picture.Audience
import ChipEight.Proofs.Picture.Renderer

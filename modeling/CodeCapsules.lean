import CodeCapsules.Address
import CodeCapsules.Bytes.Basic
import CodeCapsules.Bytes.Blake3
import CodeCapsules.Bytes.Crc32
import CodeCapsules.Bytes.Hex
import CodeCapsules.Bytes.Utf8
import CodeCapsules.CommandLine.Grammar
import CodeCapsules.CommandLine.Parse
import CodeCapsules.CommandLine.Rejection
import CodeCapsules.CommandLine.Request
import CodeCapsules.Disk.Basic
import CodeCapsules.Disk.Error
import CodeCapsules.Disk.FileTree
import CodeCapsules.Disk.Path
import CodeCapsules.Document.Basic
import CodeCapsules.Document.Flash
import CodeCapsules.Document.Store
import CodeCapsules.Document.Toml
import CodeCapsules.Event
import CodeCapsules.FileType
import CodeCapsules.Flash.Archive
import CodeCapsules.Flash.Builder
import CodeCapsules.Flash.Device
import CodeCapsules.Flash.Error
import CodeCapsules.Flash.FaultyDevice
import CodeCapsules.Flash.Frame
import CodeCapsules.Flash.Image
import CodeCapsules.Flash.WriteSession
import CodeCapsules.Handle
import CodeCapsules.Hash
import CodeCapsules.Json.Basic
import CodeCapsules.Json.Reader
import CodeCapsules.Json.Shape
import CodeCapsules.Machine.Error
import CodeCapsules.Machine.Instruction
import CodeCapsules.Machine.Simulator
import CodeCapsules.Machine.State
import CodeCapsules.Main
import CodeCapsules.Operation
import CodeCapsules.Outcome
import CodeCapsules.ReturnWidth
import CodeCapsules.Script.Basic
import CodeCapsules.Script.Command
import CodeCapsules.Script.Failure
import CodeCapsules.Script.Ink
import CodeCapsules.Store.Append
import CodeCapsules.Store.Basic
import CodeCapsules.Store.Container
import CodeCapsules.Store.Corruption
import CodeCapsules.Store.Error
import CodeCapsules.Store.Invoke
import CodeCapsules.Store.Lookup
import CodeCapsules.Store.Record
import CodeCapsules.Store.Scan
import CodeCapsules.Text.Decimal
import CodeCapsules.Text.Numeral
import CodeCapsules.Toml.Document
import CodeCapsules.Toml.Node
import CodeCapsules.Toml.Number
import CodeCapsules.Toml.Reader
import CodeCapsules.ToolConfig
import CodeCapsules.ValueError
import CodeCapsules.Proofs.Operation
import CodeCapsules.Proofs.Region
import CodeCapsules.Proofs.Capsule
import CodeCapsules.Proofs.Walk
import CodeCapsules.Proofs.Search
import CodeCapsules.Proofs.Overlay
import CodeCapsules.Proofs.Session
import CodeCapsules.Proofs.Log
import CodeCapsules.Proofs.Writing
import CodeCapsules.Proofs.Refinement
import CodeCapsules.Proofs.Atomicity
import CodeCapsules.Proofs.Erasure
import CodeCapsules.Proofs.Invariance
import CodeCapsules.Proofs.Clearing
import CodeCapsules.Proofs.Handles
import CodeCapsules.Proofs.Alignment
import CodeCapsules.Proofs.Assembly
import CodeCapsules.Proofs.Lockstep
import CodeCapsules.Proofs.Placement
import CodeCapsules.Proofs.Framing
import CodeCapsules.Proofs.Fallible
import CodeCapsules.Proofs.Retention
import CodeCapsules.Proofs.Halting
import CodeCapsules.Proofs.Confinement
import CodeCapsules.Proofs.Overflow
import CodeCapsules.Proofs.Checksum
import CodeCapsules.Proofs.Interference
import CodeCapsules.Proofs.Layout
import CodeCapsules.Proofs.Script
import CodeCapsules.Proofs.Commands
import CodeCapsules.Proofs.Persistence
import CodeCapsules.Proofs.Reservation
import CodeCapsules.Proofs.Agreement
import CodeCapsules.Proofs.Capacity
import CodeCapsules.Proofs.Inquiry
import CodeCapsules.Proofs.Recording
import CodeCapsules.Proofs.Traversal
import CodeCapsules.Proofs.Reprogramming
import CodeCapsules.Proofs.Budget
import CodeCapsules.Proofs.Delivery
import CodeCapsules.Proofs.Readability
import CodeCapsules.Proofs.Construction
import CodeCapsules.Proofs.Spelling

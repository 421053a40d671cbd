import Retrace.Bytes
import Retrace.Word
import Retrace.Keccak
import Retrace.Text.Digits
import Retrace.Text.Blank
import Retrace.Text.Ranges
import Retrace.Text.Unprinted
import Retrace.Text.ClusterClass
import Retrace.Text.Cluster
import Retrace.Text.Quoted
import Retrace.Text.Hex
import Retrace.Text.Numeral
import Retrace.Halt
import Retrace.Opcode
import Retrace.Program
import Retrace.Machine.Stack
import Retrace.Machine.Extent
import Retrace.Machine.Memory
import Retrace.Machine.Storage
import Retrace.Machine.Gas
import Retrace.Machine.State
import Retrace.Machine.Execute
import Retrace.Machine.Table
import Retrace.Machine.Step
import Retrace.Session.History
import Retrace.Session.Breakpoints
import Retrace.Session.Session
import Retrace.Listing
import Retrace.View
import Retrace.Panel
import Retrace.Console.Command
import Retrace.Console.Console
import Retrace.Console.Draft
import Retrace.Toml.Node
import Retrace.Toml.Scalar
import Retrace.Toml.Document
import Retrace.Settings
import Retrace.Error
import Retrace.Settings.Document
import Retrace.Options
import Retrace.Launch
import Retrace.Main
import Retrace.Proofs.Machine.Growth
import Retrace.Proofs.Decoding
import Retrace.Proofs.Tiling
import Retrace.Proofs.Machine.Effect
import Retrace.Proofs.Machine.Step
import Retrace.Proofs.Machine.Faults
import Retrace.Proofs.Session.Log
import Retrace.Proofs.Machine.Alignment
import Retrace.Proofs.Machine.Extension
import Retrace.Proofs.Machine.Accounts
import Retrace.Proofs.Machine.Calls
import Retrace.Proofs.Machine.Spending
import Retrace.Proofs.Session.Bounds
import Retrace.Proofs.Session.Navigation
import Retrace.Proofs.Session.Arrival
import Retrace.Proofs.Session.Events
import Retrace.Proofs.Session.Stops
import Retrace.Proofs.Machine.Checks
import Retrace.Proofs.Machine.Solvency
import Retrace.Proofs.Machine.Allowance
import Retrace.Proofs.Machine.Atomicity
import Retrace.Proofs.Machine.Contents
import Retrace.Proofs.Machine.Stores
import Retrace.Proofs.Listing
import Retrace.Proofs.Machine.Coincidence
import Retrace.Proofs.Machine.Run
import Retrace.Proofs.Machine.Discipline
import Retrace.Proofs.Machine.Words
import Retrace.Proofs.Machine.Sources
import Retrace.Proofs.Machine.Parameters
import Retrace.Proofs.Session.Tables
import Retrace.Proofs.Session.Verdict
import Retrace.Proofs.Console.Script
import Retrace.Proofs.Session.Continued
import Retrace.Proofs.Machine.Accesses
import Retrace.Proofs.Text.Digits
import Retrace.Proofs.Text.Lines
import Retrace.Proofs.Machine.Slots
import Retrace.Proofs.Rows
import Retrace.Proofs.Strip
import Retrace.Proofs.Text.Blank
import Retrace.Proofs.Text.Spelling
import Retrace.Proofs.Text.Numeral
import Retrace.Proofs.Console.Grammar
import Retrace.Proofs.Results
import Retrace.Proofs.Text.Hex
import Retrace.Proofs.Settings
import Retrace.Proofs.Console.Window
import Retrace.Proofs.Machine.Sparse
import Retrace.Proofs.Panels
import Retrace.Proofs.Machine.Expansion
import Retrace.Proofs.Machine.Touching
import Retrace.Proofs.Machine.Column

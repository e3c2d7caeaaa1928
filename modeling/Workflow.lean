import Workflow.Decimal.Rounded
import Workflow.Decimal.Reading
import Workflow.Text.Blank
import Workflow.Text.Lowercase
import Workflow.Text.Quoted
import Workflow.Json.Printer
import Workflow.Json.Syntax
import Workflow.Json.Decode
import Workflow.Vars
import Workflow.Definition
import Workflow.Instant
import Workflow.Event
import Workflow.Control
import Workflow.Condition.Choice
import Workflow.Toml
import Workflow.Config
import Workflow.Http
import Workflow.Project
import Workflow.Catalog
import Workflow.Disk
import Workflow.Registry
import Workflow.Watch.Journal
import Workflow.Script.Compiler
import Workflow.Script.Machine
import Workflow.Sandbox
import Workflow.Interpreter.Rehearsal
import Workflow.Coordinator
import Workflow.Engine.Schedule
import Workflow.Main
import Workflow.Proofs.Engine.Settling
import Workflow.Proofs.Engine.Courier
import Workflow.Proofs.Interpreter.Halt
import Workflow.Proofs.Interpreter.Replay
import Workflow.Proofs.Interpreter.Inbox
import Workflow.Proofs.Interpreter.Wait
import Workflow.Proofs.Engine.Saving
import Workflow.Proofs.Watch.Fanout
import Workflow.Proofs.Decimal.Product
import Workflow.Proofs.Decimal.Shortest
import Workflow.Proofs.Decimal.Numeral
import Workflow.Proofs.Json.Number
import Workflow.Proofs.Json.RoundTrip
import Workflow.Proofs.Instant
import Workflow.Proofs.Json.Decode
import Workflow.Proofs.Run.Record
import Workflow.Proofs.Disk
import Workflow.Proofs.Registry
import Workflow.Proofs.Engine.Reload
import Workflow.Proofs.Coordinator.Strays
import Workflow.Proofs.Coordinator.Convergence
import Workflow.Proofs.Engine.Observed
import Workflow.Proofs.Engine.Registration
import Workflow.Proofs.Text.Blank
import Workflow.Proofs.Condition.Choice
import Workflow.Proofs.Text.Lowercase
import Workflow.Proofs.Text.Bytes
import Workflow.Proofs.Vars.Key
import Workflow.Proofs.Json.Canonical
import Workflow.Proofs.Vars.Store
import Workflow.Proofs.Event
import Workflow.Proofs.Control
import Workflow.Proofs.Engine.Ledger
import Workflow.Proofs.Engine.Printing
import Workflow.Proofs.Engine.Finishing
import Workflow.Proofs.Engine.Agreement
import Workflow.Proofs.Condition.Complement
import Workflow.Proofs.Condition.Literal
import Workflow.Proofs.Condition.Comparison
import Workflow.Proofs.Condition.Quoted
import Workflow.Proofs.Engine.Shutdown
import Workflow.Proofs.Condition.Question
import Workflow.Proofs.Interpreter.Chain
import Workflow.Proofs.Script.ReadBack
import Workflow.Proofs.Engine.History
import Workflow.Proofs.Watch.Journal
import Workflow.Proofs.Coordinator.Directory
import Workflow.Proofs.Interruption
import Workflow.Proofs.Environment
import Workflow.Proofs.Catalog
import Workflow.Proofs.Interpreter.Failure
import Workflow.Proofs.CommandLine.Preview
import Workflow.Proofs.Vars.Slot
import Workflow.Proofs.Vars.Walk
import Workflow.Proofs.Watch.Register

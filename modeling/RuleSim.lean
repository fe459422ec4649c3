import RuleSim.Snapshot.Reading
import RuleSim.Snapshot.Writing
import RuleSim.Json.Printer
import RuleSim.Wire.Argument
import RuleSim.Wire.Report
import RuleSim.Proofs.Heap
import RuleSim.Proofs.Number.Time
import RuleSim.Proofs.Scheduler.Sound
import RuleSim.Proofs.Scheduler.Agenda
import RuleSim.Proofs.Scheduler.Chronology
import RuleSim.Proofs.Scheduler.Delivery
import RuleSim.Proofs.Scheduler.Recurring
import RuleSim.Proofs.World.Sound
import RuleSim.Proofs.Execution.Change
import RuleSim.Proofs.Engine.Taken
import RuleSim.Proofs.Engine.Heartbeat
import RuleSim.Proofs.Content.Allocator
import RuleSim.Proofs.Content.Atomic
import RuleSim.Proofs.Simulation.Horizon
import RuleSim.Proofs.Simulation.Reset
import RuleSim.Proofs.Engine.Recovery
import RuleSim.Proofs.Engine.Progress
import RuleSim.Proofs.MessagePack
import RuleSim.Proofs.Table
import RuleSim.Proofs.Json.Tree
import RuleSim.Proofs.Number.Rounding
import RuleSim.Proofs.Json.Reader
import RuleSim.Proofs.Value.Reference
import RuleSim.Proofs.Value.Comparison
import RuleSim.Proofs.Value.Document
import RuleSim.Proofs.Expr.Parts
import RuleSim.Proofs.Expr.Return
import RuleSim.Proofs.Expr.Action
import RuleSim.Proofs.Document.Record
import RuleSim.Proofs.Document.FieldType
import RuleSim.Proofs.Document.Return
import RuleSim.Proofs.Document.RoundTrip
import RuleSim.Proofs.Snapshot.RoundTrip
import RuleSim.Proofs.Simulation.Loading
import RuleSim.Proofs.Simulation.Observation
import RuleSim.Proofs.Content.Conservative
import RuleSim.Proofs.Simulation.Merged
import RuleSim.Proofs.World.Furnished
import RuleSim.Proofs.World.Typed
import RuleSim.Proofs.Simulation.Conforming
import RuleSim.Proofs.Execution.Termination
import RuleSim.Proofs.Execution.Construction
import RuleSim.Proofs.Execution.Postings
import RuleSim.Proofs.Execution.Accounts
import RuleSim.Proofs.Execution.Scoping
import RuleSim.Proofs.World.Freshness
import RuleSim.Proofs.World.Query
import RuleSim.Proofs.Simulation.Installing
import RuleSim.Proofs.Content.RuleIds
import RuleSim.Proofs.Engine.Stepping
import RuleSim.Proofs.World.Cloning
import RuleSim.Proofs.Value.Arithmetic
import RuleSim.Proofs.Content.RuleOrder
import RuleSim.Proofs.Execution.Iteration
import RuleSim.Proofs.Execution.Backtrace
import RuleSim.Proofs.Simulation.Rousing
import RuleSim.Proofs.Simulation.Window
import RuleSim.Proofs.Execution.Compound
import RuleSim.Proofs.Value.Extremum

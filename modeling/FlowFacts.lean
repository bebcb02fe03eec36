import FlowFacts.Context.Display
import FlowFacts.Context.Operation
import FlowFacts.Session
import FlowFacts.Settings.Filter
import FlowFacts.Proofs.Context.Effect
import FlowFacts.Proofs.Context.Invariant
import FlowFacts.Proofs.Context.Reading
import FlowFacts.Proofs.Context.JoinLaw
import FlowFacts.Proofs.Context.Snapshot
import FlowFacts.Proofs.Flat.Basic
import FlowFacts.Proofs.Program.Trees
import FlowFacts.Proofs.Context.Growth
import FlowFacts.Proofs.Flat.Refinement
import FlowFacts.Proofs.Program.Paths
import FlowFacts.Proofs.Program.Resolved
import FlowFacts.Proofs.Program.Scoping
import FlowFacts.Proofs.Flat.Frame
import FlowFacts.Proofs.Flat.Plain
import FlowFacts.Proofs.Program.Guards
import FlowFacts.Proofs.Tracking.Basic
import FlowFacts.Proofs.Tracking.Expressions
import FlowFacts.Proofs.Tracking.Soundness
import FlowFacts.Proofs.Tracking.Assignment
import FlowFacts.Proofs.Tracking.Nullness
import FlowFacts.Proofs.Program.Completion
import FlowFacts.Proofs.Flat.Liveness
import FlowFacts.Proofs.Reachability
import FlowFacts.Proofs.Context.Isolation
import FlowFacts.Proofs.Context.Recall
import FlowFacts.Proofs.Context.Declaration
import FlowFacts.Proofs.Survey.Agreement
import FlowFacts.Proofs.Survey.Refinement
import FlowFacts.Proofs.Flat.Unset
import FlowFacts.Proofs.Program.Arrival
import FlowFacts.Proofs.Alarms.Walk
import FlowFacts.Proofs.Alarms.Justification
import FlowFacts.Proofs.Reports
import FlowFacts.Proofs.Flat.Totality
import FlowFacts.Proofs.Walk.Visits
import FlowFacts.Proofs.Walk.Failure
import FlowFacts.Proofs.Strictness.Facts
import FlowFacts.Proofs.Strictness.Tree
import FlowFacts.Proofs.Strictness.Steps
import FlowFacts.Proofs.Strictness.Walk
import FlowFacts.Proofs.Strictness.Guards
import FlowFacts.Proofs.Context.Marking
import FlowFacts.Proofs.Context.Representation
import FlowFacts.Proofs.Context.Visibility
import FlowFacts.Proofs.Program.Regions
import FlowFacts.Proofs.Unreachable
import FlowFacts.Proofs.Context.Settling
import FlowFacts.Proofs.Program.Renumbering
import FlowFacts.Proofs.DeadCode.Contexts
import FlowFacts.Proofs.DeadCode.Steps
import FlowFacts.Proofs.DeadCode.Walk
import FlowFacts.Proofs.DeadCode.Edits
import FlowFacts.Proofs.DeadCode.Inert
import FlowFacts.Proofs.Redeclaration
import FlowFacts.Proofs.Context.Decided
import FlowFacts.Proofs.Moments.Basic
import FlowFacts.Proofs.Moments.Walk
import FlowFacts.Proofs.Moments.Calls
import FlowFacts.Proofs.Moments.Totality
import FlowFacts.Proofs.Moments.Narrowings
import FlowFacts.Proofs.Flat.History
import FlowFacts.Proofs.Flat.Renumbering
import FlowFacts.Proofs.Exchange.Order
import FlowFacts.Proofs.Exchange.Findings
import FlowFacts.Proofs.Exchange.Steps
import FlowFacts.Proofs.Exchange.Places
import FlowFacts.Proofs.Exchange.Negation
import FlowFacts.Proofs.Context.Persistence
import FlowFacts.Proofs.Context.Piecemeal
import FlowFacts.Proofs.Context.Atomicity
import FlowFacts.Proofs.Flat.Nested
import FlowFacts.Proofs.Nesting
import FlowFacts.Proofs.Context.Pointwise
import FlowFacts.Proofs.Renaming.Syntax
import FlowFacts.Proofs.Renaming.Contexts
import FlowFacts.Proofs.Renaming.Walk
import FlowFacts.Proofs.Renaming.Storage
import FlowFacts.Proofs.Context.Descent
import FlowFacts.Proofs.Conditions.NormalForm
import FlowFacts.Proofs.Conditions.Soundness
import FlowFacts.Proofs.Flat.Gates
import FlowFacts.Proofs.Evaluation
import FlowFacts.Proofs.Context.Idempotence
import FlowFacts.Proofs.Context.Shadowing
import FlowFacts.Proofs.Program.Building
import FlowFacts.Proofs.Toml.Documents
import FlowFacts.Proofs.Settings.Decoding
import FlowFacts.Proofs.Settings.Levels

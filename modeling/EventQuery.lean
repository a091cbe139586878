import EventQuery.Value.Order
import EventQuery.Value.Text
import EventQuery.Time.Wildcard
import EventQuery.Stream.Event
import EventQuery.Expr.Basic
import EventQuery.Eval.Compile
import EventQuery.Lookup.Operator
import EventQuery.Rollup.Chain
import EventQuery.Partition
import EventQuery.Proofs.Store.OrderedMap
import EventQuery.Proofs.Store.EventSet
import EventQuery.Proofs.Store.Holder
import EventQuery.Proofs.Store.Removal
import EventQuery.Proofs.Store.Ledger
import EventQuery.Proofs.Eval.Run
import EventQuery.Proofs.Eval.Independence
import EventQuery.Proofs.Eval.Compile
import EventQuery.Proofs.Eval.Acceptance
import EventQuery.Proofs.Eval.Scalars
import EventQuery.Proofs.Eval.Typing
import EventQuery.Proofs.Eval.Typecheck
import EventQuery.Proofs.Eval.Soundness
import EventQuery.Proofs.Lookup.Candidates
import EventQuery.Proofs.Lookup.Classification
import EventQuery.Proofs.Lookup.Building
import EventQuery.Proofs.Lookup.Plan
import EventQuery.Proofs.Lookup.Soundness
import EventQuery.Proofs.Lookup.Shortcuts
import EventQuery.Proofs.Lookup.Eagerness
import EventQuery.Proofs.Lookup.Totality
import EventQuery.Proofs.Lookup.Retain
import EventQuery.Proofs.Lookup.Deletion
import EventQuery.Proofs.Lookup.Agreement
import EventQuery.Proofs.Time.Calendar
import EventQuery.Proofs.Time.Granularity
import EventQuery.Proofs.Time.Civil
import EventQuery.Proofs.Time.Tiling
import EventQuery.Proofs.Time.Columns
import EventQuery.Proofs.Time.Wildcard
import EventQuery.Proofs.Eval.Aggregate
import EventQuery.Proofs.Rollup.Partial
import EventQuery.Proofs.Rollup.Layout
import EventQuery.Proofs.Rollup.Codes
import EventQuery.Proofs.Rollup.Bucket
import EventQuery.Proofs.Rollup.Represents
import EventQuery.Proofs.Rollup.Slots
import EventQuery.Proofs.Rollup.Store
import EventQuery.Proofs.Rollup.Opening
import EventQuery.Proofs.Rollup.Level
import EventQuery.Proofs.Rollup.Chain
import EventQuery.Proofs.Rollup.Reading
import EventQuery.Proofs.Rollup.Compiled
import EventQuery.Proofs.Rollup.Conservation
import EventQuery.Proofs.Rollup.WellFormed
import EventQuery.Proofs.Rollup.Filing
import EventQuery.Proofs.Rollup.Flush
import EventQuery.Proofs.Number.Format
import EventQuery.Proofs.Number.Decimal
import EventQuery.Proofs.Rollup.Key
import EventQuery.Proofs.Rollup.Range
import EventQuery.Proofs.Rollup.Selection
import EventQuery.Proofs.Rollup.Exact
import EventQuery.Proofs.Eval.Average
import EventQuery.Proofs.Rollup.Sources
import EventQuery.Proofs.Rollup.Average
import EventQuery.Proofs.Eval.Cells
import EventQuery.Proofs.Eval.Mirror
import EventQuery.Proofs.Eval.Reset
import EventQuery.Proofs.Partition.Lookup
import EventQuery.Proofs.Partition.Retrieval
import EventQuery.Proofs.Partition.Allotment
import EventQuery.Proofs.Partition.Copy
import EventQuery.Proofs.Partition.Sharing
import EventQuery.Proofs.Rollup.Session
import EventQuery.Proofs.Rollup.Rejection
import EventQuery.Proofs.Lookup.Degradation
import EventQuery.Proofs.Eval.Turning
import EventQuery.Proofs.Lookup.Turning
import EventQuery.Proofs.Eval.Failure
import EventQuery.Proofs.Eval.Positions
import EventQuery.Proofs.Eval.Reporting
import EventQuery.Proofs.Eval.Overflow
import EventQuery.Proofs.Rollup.Bounds
import EventQuery.Proofs.Rollup.Span
import EventQuery.Proofs.Rollup.Liveness
import EventQuery.Proofs.Number.Comparison
import EventQuery.Proofs.Value.Exact
import EventQuery.Proofs.Store.Lookup
import EventQuery.Proofs.Eval.Binding
import EventQuery.Proofs.Lookup.Binding
import EventQuery.Proofs.Lookup.Independence
import EventQuery.Proofs.Eval.Tracking
import EventQuery.Proofs.Eval.Arithmetic
import EventQuery.Proofs.Eval.Widening
import EventQuery.Proofs.Lookup.Approximation

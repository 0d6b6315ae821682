import Rollup.Aggregate.Accumulator
import Rollup.Aggregate.Basic
import Rollup.Aggregate.Slot
import Rollup.Aggregate.State
import Rollup.Aggregate.View
import Rollup.Binary.Basic
import Rollup.Binary.Layout
import Rollup.Binary.Reading
import Rollup.Binary.Rounding
import Rollup.Binary.Shortest
import Rollup.Calendar.Date
import Rollup.Calendar.Timestamp
import Rollup.Column.Basic
import Rollup.Column.Storage
import Rollup.Column.Type
import Rollup.Decimal
import Rollup.Journal
import Rollup.Plan
import Rollup.Proofs.Aggregate.Answer
import Rollup.Proofs.Aggregate.Condense
import Rollup.Proofs.Aggregate.Digest
import Rollup.Proofs.Aggregate.Family
import Rollup.Proofs.Aggregate.Form
import Rollup.Proofs.Aggregate.Handover
import Rollup.Proofs.Aggregate.Load
import Rollup.Proofs.Aggregate.Reached
import Rollup.Proofs.Aggregate.Retention
import Rollup.Proofs.Aggregate.Slot
import Rollup.Proofs.Calendar.Civil
import Rollup.Proofs.Calendar.Elapsed
import Rollup.Proofs.Calendar.Units
import Rollup.Proofs.Column.Stored
import Rollup.Proofs.Decimal.Reading
import Rollup.Proofs.Decimal.Register
import Rollup.Proofs.Decimal.RoundTrip
import Rollup.Proofs.Outcome
import Rollup.Proofs.Plan
import Rollup.Proofs.Table.Admission
import Rollup.Proofs.Table.Agreement
import Rollup.Proofs.Table.Atomic
import Rollup.Proofs.Table.Chunks
import Rollup.Proofs.Table.Classes
import Rollup.Proofs.Table.Columnwise
import Rollup.Proofs.Table.Crossing
import Rollup.Proofs.Table.Emission
import Rollup.Proofs.Table.Faults
import Rollup.Proofs.Table.Instants
import Rollup.Proofs.Table.Intake
import Rollup.Proofs.Table.Key
import Rollup.Proofs.Table.Layout
import Rollup.Proofs.Table.Ledger
import Rollup.Proofs.Table.Life
import Rollup.Proofs.Table.Load
import Rollup.Proofs.Table.Merge
import Rollup.Proofs.Table.Precision
import Rollup.Proofs.Table.Report
import Rollup.Proofs.Table.Results
import Rollup.Proofs.Table.Retention
import Rollup.Proofs.Table.RowByRow
import Rollup.Proofs.Table.Run
import Rollup.Proofs.Table.Simulation
import Rollup.Proofs.Table.SinglePass
import Rollup.Proofs.Table.Stages
import Rollup.Proofs.Table.Summary
import Rollup.Proofs.Table.TwoStage
import Rollup.Proofs.Text.Digits
import Rollup.Proofs.Text.Literal
import Rollup.Proofs.Text.Rounding
import Rollup.Proofs.Value.Comparison
import Rollup.Proofs.Value.Equality
import Rollup.Proofs.Value.Held
import Rollup.Proofs.Value.Order
import Rollup.Proofs.Value.Rational
import Rollup.Settings
import Rollup.Signed
import Rollup.Table.Basic
import Rollup.Table.Group
import Rollup.Table.Key
import Rollup.Table.Ledger
import Rollup.Table.Result
import Rollup.Table.Row
import Rollup.Text.Blank
import Rollup.Text.Digits
import Rollup.Text.Numeral
import Rollup.Text.Printable
import Rollup.Text.Quoted
import Rollup.Text.Terminal
import Rollup.Toml.Item
import Rollup.Toml.Reader
import Rollup.Toml.Scalar
import Rollup.Toml.Text
import Rollup.Value.Basic
import Rollup.Value.Normal
import Rollup.Value.Text
import Rollup.Proofs.Column.Codec
import Rollup.Proofs.Column.Accepted
import Rollup.Proofs.Table.Widening
import Rollup.Proofs.Binary.Decimal
import Rollup.Proofs.Binary.Grammar
import Rollup.Binary.Slices
import Rollup.Proofs.Binary.Slices
import Rollup.Proofs.Column.Nesting
import Rollup.Proofs.Column.Correspondence
import Rollup.Proofs.Aggregate.Classification
import Rollup.Proofs.Table.Refusals
import Rollup.Proofs.Table.Unsupported
import Rollup.Proofs.Decimal.Display
import Rollup.Proofs.Calendar.Text
import Rollup.Proofs.Binary.Datum
import Rollup.Proofs.Value.Normal
import Rollup.Proofs.Column.Naming

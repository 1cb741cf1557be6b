import KeyedRows.Batch
import KeyedRows.Table.Json
import KeyedRows.Proofs.Junction
import KeyedRows.Proofs.Evaluation
import KeyedRows.Proofs.KeyOrder
import KeyedRows.Proofs.Sql.Token
import KeyedRows.Proofs.Sql.Grammar
import KeyedRows.Proofs.Sql.Piece
import KeyedRows.Proofs.Sql.Condition
import KeyedRows.Proofs.Sql.Address
import KeyedRows.Proofs.Decimal.Text
import KeyedRows.Proofs.Decimal.Rational
import KeyedRows.Proofs.Calendar.Text
import KeyedRows.Proofs.Coercion
import KeyedRows.Proofs.KeyMatch
import KeyedRows.Proofs.Sql.Bind
import KeyedRows.Proofs.Batch.Desk
import KeyedRows.Proofs.Batch.Requests
import KeyedRows.Proofs.Batch.Flush
import KeyedRows.Proofs.Sql.Engine
import KeyedRows.Proofs.Sql.Effect
import KeyedRows.Proofs.Session.Address
import KeyedRows.Proofs.Session.Run
import KeyedRows.Proofs.Sql.Database
import KeyedRows.Proofs.Batch.Query
import KeyedRows.Proofs.Loading
import KeyedRows.Proofs.Batch.Run
import KeyedRows.Proofs.Batch.Lifecycle
import KeyedRows.Proofs.Batch.Bookkeeping
import KeyedRows.Proofs.Decimal.Normal
import KeyedRows.Proofs.Decimal.Arithmetic
import KeyedRows.Proofs.Session.DiffOnly
import KeyedRows.Proofs.Session.Paging
import KeyedRows.Proofs.Sql.Placeholder
import KeyedRows.Proofs.Sql.Slots
import KeyedRows.Proofs.Sql.Alignment
import KeyedRows.Proofs.Sql.Shape
import KeyedRows.Proofs.Session.Edits
import KeyedRows.Proofs.Session.Sent
import KeyedRows.Proofs.KeyEquality
import KeyedRows.Proofs.Session.Update
import KeyedRows.Proofs.Session.Refresh
import KeyedRows.Proofs.Precision
import KeyedRows.Proofs.TextForm
import KeyedRows.Proofs.Decimal.Quotient
import KeyedRows.Proofs.Json
import KeyedRows.Proofs.Decimal.Spelling
import KeyedRows.Proofs.Session.Changes
import KeyedRows.Proofs.Session.Insert
import KeyedRows.Proofs.Decimal.Grammar
import KeyedRows.Proofs.Decimal.Truncation
import KeyedRows.Proofs.TimeOrder
import KeyedRows.Proofs.Refusal
import KeyedRows.Proofs.Grouping
import KeyedRows.Proofs.Decimal.Integer
import KeyedRows.Proofs.Decimal.Wrapping
import KeyedRows.Proofs.Calendar.Agreement
import KeyedRows.Proofs.Documents

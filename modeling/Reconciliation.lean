import Reconciliation.Account.Balance
import Reconciliation.Account.Category
import Reconciliation.Account.Order
import Reconciliation.Account.Position
import Reconciliation.Collection
import Reconciliation.Command
import Reconciliation.CommandLine
import Reconciliation.Compare.Detection
import Reconciliation.Compare.Discrepancy
import Reconciliation.Compare.Finding
import Reconciliation.Compare.Snapshot
import Reconciliation.Compare.Tolerances
import Reconciliation.Configuration.Application
import Reconciliation.Configuration.Layer
import Reconciliation.Configuration.Scalar
import Reconciliation.Connector.Change
import Reconciliation.Connector.Error
import Reconciliation.Connector.Paper
import Reconciliation.Connector.Registry
import Reconciliation.Database
import Reconciliation.Health
import Reconciliation.Host
import Reconciliation.Identifier
import Reconciliation.Json.Printer
import Reconciliation.Json.Reader
import Reconciliation.Json.Record
import Reconciliation.Json.Value
import Reconciliation.Ledger.Book
import Reconciliation.Ledger.Error
import Reconciliation.Ledger.Journal
import Reconciliation.Ledger.Mutation
import Reconciliation.Ledger.State
import Reconciliation.Main
import Reconciliation.Metrics
import Reconciliation.Numeric.Binary64
import Reconciliation.Numeric.Binary64.Shortest
import Reconciliation.Numeric.Decimal
import Reconciliation.Numeric.Decimal.Arithmetic
import Reconciliation.Numeric.Decimal.Text
import Reconciliation.Numeric.Rounding
import Reconciliation.Numeric.Word
import Reconciliation.Path
import Reconciliation.Retry
import Reconciliation.Session.Basic
import Reconciliation.Session.Delivery
import Reconciliation.Session.Error
import Reconciliation.Session.Report
import Reconciliation.Session.Run
import Reconciliation.Session.Store
import Reconciliation.Settings
import Reconciliation.Sha1
import Reconciliation.Simulation.Bench
import Reconciliation.Simulation.Scenario
import Reconciliation.Simulation.Session
import Reconciliation.Simulation.Timeline
import Reconciliation.SortedMap
import Reconciliation.Text.Blank
import Reconciliation.Text.Digits
import Reconciliation.Text.Endpoint
import Reconciliation.Text.LowerCase
import Reconciliation.Time.Calendar
import Reconciliation.Time.Instant
import Reconciliation.Time.Rfc3339
import Reconciliation.Time.Span
import Reconciliation.Toml.Document
import Reconciliation.Toml.Scalar
import Reconciliation.Toml.Token
import Reconciliation.Uuid
import Reconciliation.Proofs.Checked
import Reconciliation.Proofs.Ledger.Change
import Reconciliation.Proofs.Ledger.Posting
import Reconciliation.Proofs.Compare.Matching
import Reconciliation.Proofs.Compare.Agreement
import Reconciliation.Proofs.Numeric.Decimal
import Reconciliation.Proofs.Ledger.Soundness
import Reconciliation.Proofs.Compare.Mirror
import Reconciliation.Proofs.Text.Digits
import Reconciliation.Proofs.Numeric.DecimalText
import Reconciliation.Proofs.Time.Calendar
import Reconciliation.Proofs.Time.Rfc3339
import Reconciliation.Proofs.Uuid
import Reconciliation.Proofs.Json.Text
import Reconciliation.Proofs.Account.Record
import Reconciliation.Proofs.Ledger.Mutation
import Reconciliation.Proofs.Ledger.Journal
import Reconciliation.Proofs.Ledger.Restart
import Reconciliation.Proofs.Compare.ReportOrder
import Reconciliation.Proofs.Compare.Findings
import Reconciliation.Proofs.Session.Recording
import Reconciliation.Proofs.Session.Course
import Reconciliation.Proofs.Session.Progress
import Reconciliation.Proofs.Session.Settlement
import Reconciliation.Proofs.Session.Confluence
import Reconciliation.Proofs.Session.Accounting
import Reconciliation.Proofs.Session.Announcement
import Reconciliation.Proofs.Compare.Overflow
import Reconciliation.Proofs.Session.Containment
import Reconciliation.Proofs.Simulation.Session
import Reconciliation.Proofs.Ledger.History
import Reconciliation.Proofs.Ledger.Reading
import Reconciliation.Proofs.Ledger.Rereading
import Reconciliation.Proofs.Session.LedgerVersion
import Reconciliation.Proofs.Ledger.Completeness
import Reconciliation.Proofs.Session.Bookkeeping
import Reconciliation.Proofs.Compare.Judgement
import Reconciliation.Proofs.Compare.Identity
import Reconciliation.Proofs.Compare.Subject
import Reconciliation.Proofs.Compare.ReportShape
import Reconciliation.Proofs.Compare.InputOrder
import Reconciliation.Proofs.Compare.Locality
import Reconciliation.Proofs.Numeric.Rounding
import Reconciliation.Proofs.Compare.Tolerances
import Reconciliation.Proofs.Compare.Loosening
import Reconciliation.Proofs.Compare.Remaining
import Reconciliation.Proofs.Ledger.Adjustment
import Reconciliation.Proofs.Time.TextOrder
import Reconciliation.Proofs.Json.Number
import Reconciliation.Proofs.Session.ReportRecord
import Reconciliation.Proofs.Session.ReportLog
import Reconciliation.Proofs.Session.ReportHistory
import Reconciliation.Proofs.Ledger.Appending
import Reconciliation.Proofs.Ledger.Commutation
import Reconciliation.Proofs.Ledger.Query
import Reconciliation.Proofs.Retry
import Reconciliation.Proofs.Session.Figures
import Reconciliation.Proofs.Session.Entries
import Reconciliation.Proofs.Connector.Venue
import Reconciliation.Proofs.Simulation.Collection
import Reconciliation.Proofs.Session.Chronology
import Reconciliation.Proofs.Session.Delivery
import Reconciliation.Proofs.Backoff

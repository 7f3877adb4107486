import TokenLedger.Activity.Basic
import TokenLedger.Activity.OfTransaction
import TokenLedger.Address
import TokenLedger.Digest.Sha256
import TokenLedger.Event.Basic
import TokenLedger.Event.Kind
import TokenLedger.Event.Payload
import TokenLedger.Identity
import TokenLedger.Ingest
import TokenLedger.Json.Encoding
import TokenLedger.Json.Printer
import TokenLedger.Json.Reader
import TokenLedger.Json.Value
import TokenLedger.Number.Decimal
import TokenLedger.Number.Double
import TokenLedger.Number.Numeral
import TokenLedger.Number.Rounded
import TokenLedger.Number.Rounding
import TokenLedger.Number.Whole
import TokenLedger.Proofs.Activity.Given
import TokenLedger.Proofs.Activity.Joined
import TokenLedger.Proofs.Activity.Proper
import TokenLedger.Proofs.Activity.RoundTrip
import TokenLedger.Proofs.Activity.WellFormed
import TokenLedger.Proofs.Address.Canonical
import TokenLedger.Proofs.Address.Number
import TokenLedger.Proofs.Decimal.Accepted
import TokenLedger.Proofs.Decimal.Bounds
import TokenLedger.Proofs.Decimal.Canonical
import TokenLedger.Proofs.Decimal.Nearest
import TokenLedger.Proofs.Decimal.Plain
import TokenLedger.Proofs.Decimal.Reading
import TokenLedger.Proofs.Decimal.Rounding
import TokenLedger.Proofs.Decimal.Value
import TokenLedger.Proofs.Event.Agreement
import TokenLedger.Proofs.Event.Declared
import TokenLedger.Proofs.Event.Decoded
import TokenLedger.Proofs.Event.Faults
import TokenLedger.Proofs.Event.Numbers
import TokenLedger.Proofs.Event.Places
import TokenLedger.Proofs.Event.RoundTrip
import TokenLedger.Proofs.Identity.Separation
import TokenLedger.Proofs.Ingest.Batching
import TokenLedger.Proofs.Ingest.Diagnostics
import TokenLedger.Proofs.Ingest.Effect
import TokenLedger.Proofs.Ingest.Failures
import TokenLedger.Proofs.Ingest.Isolation
import TokenLedger.Proofs.Ingest.Reordering
import TokenLedger.Proofs.Json.Inside
import TokenLedger.Proofs.Json.Limits
import TokenLedger.Proofs.Json.RoundTrip
import TokenLedger.Proofs.Json.Same
import TokenLedger.Proofs.Json.Scalars
import TokenLedger.Proofs.Schema.Accepted
import TokenLedger.Proofs.Schema.Alike
import TokenLedger.Proofs.Schema.Reports
import TokenLedger.Proofs.Schema.Shape
import TokenLedger.Proofs.Service.Bodies
import TokenLedger.Proofs.Service.Listings
import TokenLedger.Proofs.Service.Posts
import TokenLedger.Proofs.Service.Trial
import TokenLedger.Proofs.Session.Errors
import TokenLedger.Proofs.Session.Failing
import TokenLedger.Proofs.Session.Reads
import TokenLedger.Proofs.Session.Redelivery
import TokenLedger.Proofs.Session.Reimport
import TokenLedger.Proofs.Session.Respelling
import TokenLedger.Proofs.Session.Rows
import TokenLedger.Proofs.Session.Search
import TokenLedger.Proofs.Session.Steps
import TokenLedger.Proofs.Settings.Connection
import TokenLedger.Proofs.Store.Fresh
import TokenLedger.Proofs.Store.Insertion
import TokenLedger.Proofs.Store.Paging
import TokenLedger.Proofs.Store.Queries
import TokenLedger.Proofs.Store.Records
import TokenLedger.Proofs.Store.Union
import TokenLedger.Proofs.Text.Normal
import TokenLedger.Proofs.Text.Separators
import TokenLedger.Proofs.Text.Utf8
import TokenLedger.Proofs.Time.Order
import TokenLedger.Proofs.Time.Seconds
import TokenLedger.Proofs.Time.Written
import TokenLedger.Proofs.Transaction.Spelling
import TokenLedger.Proofs.Transaction.Written
import TokenLedger.Schema.Check
import TokenLedger.Schema.Issue
import TokenLedger.Schema.Report
import TokenLedger.Service.Request
import TokenLedger.Service.Respond
import TokenLedger.Session
import TokenLedger.Settings
import TokenLedger.Store.Basic
import TokenLedger.Store.Listing
import TokenLedger.Text.Blank
import TokenLedger.Text.CaseTable
import TokenLedger.Text.Digit
import TokenLedger.Text.LowerCase
import TokenLedger.Text.Raw
import TokenLedger.Text.Units
import TokenLedger.Text.Width
import TokenLedger.Time.DateTime
import TokenLedger.Time.Reading
import TokenLedger.Transaction

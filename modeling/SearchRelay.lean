import SearchRelay.Backend.Basic
import SearchRelay.Backend.Memory
import SearchRelay.Backend.Remote
import SearchRelay.Backend.Script
import SearchRelay.Bulk.Operation
import SearchRelay.Bulk.Response
import SearchRelay.Cache
import SearchRelay.CommandLine.Arguments
import SearchRelay.CommandLine.Run
import SearchRelay.CommandLine.Usage
import SearchRelay.Dump
import SearchRelay.Entries
import SearchRelay.File
import SearchRelay.Gzip.Inflate
import SearchRelay.Gzip.Member
import SearchRelay.History.Graph
import SearchRelay.Http.Exchange
import SearchRelay.Http.Host
import SearchRelay.Http.StatusCode
import SearchRelay.Http.Url
import SearchRelay.Indexer
import SearchRelay.Indexing
import SearchRelay.Json.Basic
import SearchRelay.Json.Binary64
import SearchRelay.Json.Decode
import SearchRelay.Json.Encode
import SearchRelay.Json.Number
import SearchRelay.Json.Print
import SearchRelay.Json.Token
import SearchRelay.Json.Tree
import SearchRelay.Pipeline
import SearchRelay.Proofs.Backend.Ledger
import SearchRelay.Proofs.Bulk.Answers
import SearchRelay.Proofs.Bulk.Decoding
import SearchRelay.Proofs.Bulk.Delivery
import SearchRelay.Proofs.Bulk.Held
import SearchRelay.Proofs.Cache
import SearchRelay.Proofs.Entries
import SearchRelay.Proofs.History.Ancestry
import SearchRelay.Proofs.History.Graph
import SearchRelay.Proofs.Indexer.Batching
import SearchRelay.Proofs.Indexer.Candor
import SearchRelay.Proofs.Indexer.History
import SearchRelay.Proofs.Indexer.Limits
import SearchRelay.Proofs.Indexer.Plan
import SearchRelay.Proofs.Indexer.Redelivery
import SearchRelay.Proofs.Indexer.Repeats
import SearchRelay.Proofs.Indexer.Requests
import SearchRelay.Proofs.Indexing.Lines
import SearchRelay.Proofs.Indexing.Schedule
import SearchRelay.Proofs.Json.Equality
import SearchRelay.Proofs.Json.Indented
import SearchRelay.Proofs.Json.Lexing
import SearchRelay.Proofs.Json.Portable
import SearchRelay.Proofs.Json.RoundTrip
import SearchRelay.Proofs.Query.Filter
import SearchRelay.Proofs.Query.Language
import SearchRelay.Proofs.Query.Order
import SearchRelay.Proofs.Record.Stored
import SearchRelay.Proofs.Reference.Apart
import SearchRelay.Proofs.Reference.Wire
import SearchRelay.Proofs.Repository.Between
import SearchRelay.Proofs.Repository.Changes
import SearchRelay.Proofs.Repository.Convergence
import SearchRelay.Proofs.Repository.Interrupted
import SearchRelay.Proofs.Repository.Memory
import SearchRelay.Proofs.Repository.Recording
import SearchRelay.Proofs.Repository.Restart
import SearchRelay.Proofs.Repository.Run
import SearchRelay.Proofs.Repository.Shelf
import SearchRelay.Proofs.Repository.Status
import SearchRelay.Proofs.Search.Confidentiality
import SearchRelay.Proofs.Search.Coverage
import SearchRelay.Proofs.Search.Findable
import SearchRelay.Proofs.Search.Inquiries
import SearchRelay.Proofs.Search.LastPage
import SearchRelay.Proofs.Search.MarkedFields
import SearchRelay.Proofs.Search.Marking
import SearchRelay.Proofs.Search.Markup
import SearchRelay.Proofs.Search.Overlaps
import SearchRelay.Proofs.Search.Pager
import SearchRelay.Proofs.Search.Paging
import SearchRelay.Proofs.Search.Runs
import SearchRelay.Proofs.Search.Session
import SearchRelay.Proofs.Search.Snippets
import SearchRelay.Proofs.Search.Truth
import SearchRelay.Proofs.Search.Visibility
import SearchRelay.Proofs.Text.Bytes
import SearchRelay.Proofs.Text.Feeds
import SearchRelay.Proofs.Text.Lines
import SearchRelay.Proofs.Text.Occurrence
import SearchRelay.Proofs.Text.Percent
import SearchRelay.Proofs.Text.Utf8
import SearchRelay.Proofs.Time.Calendar
import SearchRelay.Proofs.Time.Instant
import SearchRelay.Query.Answer
import SearchRelay.Query.Filter
import SearchRelay.Query.Request
import SearchRelay.Query.SortBy
import SearchRelay.Record.Basic
import SearchRelay.Record.Kind
import SearchRelay.Record.Store
import SearchRelay.Reference
import SearchRelay.Relay
import SearchRelay.Report
import SearchRelay.Repository.Basic
import SearchRelay.Repository.Changes
import SearchRelay.Repository.Memory
import SearchRelay.Repository.Objects
import SearchRelay.Repository.Run
import SearchRelay.Repository.Status
import SearchRelay.Search.Access
import SearchRelay.Search.Highlight
import SearchRelay.Search.Page
import SearchRelay.Search.Results
import SearchRelay.Search.Scope
import SearchRelay.Search.Snippet
import SearchRelay.Settings.Basic
import SearchRelay.Settings.Cluster
import SearchRelay.Settings.Environment
import SearchRelay.Settings.Value
import SearchRelay.Signing.Credentials
import SearchRelay.Signing.Sha256
import SearchRelay.Signing.Signature
import SearchRelay.Text.Decimal
import SearchRelay.Text.Hex
import SearchRelay.Text.Line
import SearchRelay.Text.Occurrence
import SearchRelay.Text.Percent
import SearchRelay.Text.Quoted
import SearchRelay.Text.Space
import SearchRelay.Text.Table
import SearchRelay.Text.Unprintable
import SearchRelay.Text.Utf8
import SearchRelay.Time.Calendar
import SearchRelay.Time.Instant
import SearchRelay.Toml.Document
import SearchRelay.Toml.Scalar
import SearchRelay.Toml.Text
import SearchRelay.Proofs.Search.Window
import SearchRelay.Proofs.Text.Grouping
import SearchRelay.Proofs.Search.Parsing
import SearchRelay.Proofs.Backend.Defects

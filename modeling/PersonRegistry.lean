import PersonRegistry.Cache
import PersonRegistry.CommandLine
import PersonRegistry.Inference.Enrichment
import PersonRegistry.Inference.Exchange
import PersonRegistry.Inference.Failure
import PersonRegistry.Inference.Lookup
import PersonRegistry.Inference.Payload
import PersonRegistry.Inference.RateLimit
import PersonRegistry.Inference.Script
import PersonRegistry.Inference.Trait
import PersonRegistry.Json.Cause
import PersonRegistry.Json.Numeral
import PersonRegistry.Json.Printer
import PersonRegistry.Json.Reader
import PersonRegistry.Json.Record
import PersonRegistry.Json.Scalar
import PersonRegistry.Json.Skip
import PersonRegistry.Json.TextLiteral
import PersonRegistry.Json.Value
import PersonRegistry.Main
import PersonRegistry.Number.Binary64
import PersonRegistry.Number.ExtendedReal
import PersonRegistry.Number.Scaled
import PersonRegistry.Number.Shortest
import PersonRegistry.Order.Stable
import PersonRegistry.Person.Basic
import PersonRegistry.Person.Coding
import PersonRegistry.Person.Draft
import PersonRegistry.Person.Filter
import PersonRegistry.Person.Patch
import PersonRegistry.Person.Validation
import PersonRegistry.Queue.LineSink
import PersonRegistry.Queue.LineSource
import PersonRegistry.Queue.Pipeline
import PersonRegistry.Queue.Report
import PersonRegistry.Queue.Worker
import PersonRegistry.Service.Assembly
import PersonRegistry.Service.Backend
import PersonRegistry.Service.Error
import PersonRegistry.Service.Operations
import PersonRegistry.Service.Program
import PersonRegistry.Settings.Basic
import PersonRegistry.Settings.Environment
import PersonRegistry.Settings.HomePath
import PersonRegistry.Settings.Layers
import PersonRegistry.Settings.Load
import PersonRegistry.Settings.Setting
import PersonRegistry.Settings.Toml.Document
import PersonRegistry.Settings.Toml.Moment
import PersonRegistry.Settings.Toml.Scan
import PersonRegistry.Settings.Toml.Table
import PersonRegistry.Settings.Toml.Text
import PersonRegistry.Settings.Toml.Token
import PersonRegistry.Store.Like
import PersonRegistry.Store.Row
import PersonRegistry.Store.Table
import PersonRegistry.Text.Alphabetic
import PersonRegistry.Text.Blank
import PersonRegistry.Text.Casing
import PersonRegistry.Text.CodeRanges
import PersonRegistry.Text.IntegerText
import PersonRegistry.Text.LowerRuns
import PersonRegistry.Text.Lowercase
import PersonRegistry.Text.Parts
import PersonRegistry.Text.Quoted
import PersonRegistry.Text.Utf8
import PersonRegistry.Text.Visible
import PersonRegistry.Time.Instant
import PersonRegistry.Time.Span
import PersonRegistry.Uuid
import PersonRegistry.Web.Api
import PersonRegistry.Web.Envelope
import PersonRegistry.Web.FormText
import PersonRegistry.Web.Header
import PersonRegistry.Web.ListQuery
import PersonRegistry.Web.MediaType
import PersonRegistry.Web.Message
import PersonRegistry.Web.Router
import PersonRegistry.Web.Target
import PersonRegistry.Web.Token
import PersonRegistry.Proofs.Json.Texts
import PersonRegistry.Proofs.Json.Integers
import PersonRegistry.Proofs.Json.Numerals
import PersonRegistry.Proofs.Json.Printable
import PersonRegistry.Proofs.Json.Records
import PersonRegistry.Proofs.Json.Skipping
import PersonRegistry.Proofs.Identifiers
import PersonRegistry.Proofs.Person.Coding
import PersonRegistry.Proofs.Store.Lookups
import PersonRegistry.Proofs.Service.CacheTransparency
import PersonRegistry.Proofs.Person.Validation
import PersonRegistry.Proofs.Service.Interleaving
import PersonRegistry.Proofs.Service.StoredValidity
import PersonRegistry.Proofs.Inference.Enrichment
import PersonRegistry.Proofs.Inference.Race
import PersonRegistry.Proofs.Inference.Lookup
import PersonRegistry.Proofs.Inference.Normalisation
import PersonRegistry.Proofs.Text.Lowercase
import PersonRegistry.Proofs.Time.Timestamps
import PersonRegistry.Proofs.Store.Patterns
import PersonRegistry.Proofs.Store.Ledger
import PersonRegistry.Proofs.Store.Listing
import PersonRegistry.Proofs.Store.Refinement
import PersonRegistry.Proofs.Service.Traces
import PersonRegistry.Proofs.Service.Creation
import PersonRegistry.Proofs.Service.Effects
import PersonRegistry.Proofs.Service.Schedules
import PersonRegistry.Proofs.Service.OverlappingChanges
import PersonRegistry.Proofs.Service.CacheCoherence
import PersonRegistry.Proofs.Text.Prefixes
import PersonRegistry.Proofs.Store.Paging
import PersonRegistry.Proofs.Service.Findability
import PersonRegistry.Proofs.Queue.Messages
import PersonRegistry.Proofs.Queue.Accounting
import PersonRegistry.Proofs.Web.Effects
import PersonRegistry.Proofs.Queue.Lines
import PersonRegistry.Proofs.Queue.Consuming
import PersonRegistry.Proofs.Queue.Stopping
import PersonRegistry.Proofs.Queue.FlawedLines
import PersonRegistry.Proofs.Web.Intake
import PersonRegistry.Proofs.Service.FailedChanges
import PersonRegistry.Proofs.Json.PrintedValues
import PersonRegistry.Proofs.Queue.Framing
import PersonRegistry.Proofs.Service.GivenUp
import PersonRegistry.Proofs.Web.GivenUp
import PersonRegistry.Proofs.Number.Rounding
import PersonRegistry.Proofs.Number.Midpoints
import PersonRegistry.Proofs.Number.Shortest
import PersonRegistry.Proofs.Number.Rereading
import PersonRegistry.Proofs.Json.Decimals
import PersonRegistry.Proofs.Json.ReadingBack
import PersonRegistry.Proofs.Json.DecodedValues
import PersonRegistry.Proofs.Queue.Reports
import PersonRegistry.Proofs.Store.Matching
import PersonRegistry.Proofs.Service.Listings
import PersonRegistry.Proofs.Web.Listings
import PersonRegistry.Proofs.Queue.Waiting
import PersonRegistry.Proofs.Json.Grammar
import PersonRegistry.Proofs.Json.Readings
import PersonRegistry.Proofs.Json.OpenRecords
import PersonRegistry.Proofs.Inference.AlikeLookups
import PersonRegistry.Proofs.Inference.Siblings
import PersonRegistry.Proofs.Inference.Countries
import PersonRegistry.Proofs.Queue.Stepping
import PersonRegistry.Proofs.Service.Lifetimes
import PersonRegistry.Proofs.Text.WrittenIntegers
import PersonRegistry.Proofs.Inference.Quotas
import PersonRegistry.Proofs.Inference.Sources
import PersonRegistry.Proofs.Web.Refusals
import PersonRegistry.Proofs.Person.Domains
import PersonRegistry.Proofs.Queue.SharedSink
import PersonRegistry.Proofs.Json.AnyObjects
import PersonRegistry.Proofs.Person.Decoding
import PersonRegistry.Proofs.Web.Bodies
import PersonRegistry.Proofs.Settings.Layers
import PersonRegistry.Proofs.Settings.Values
import PersonRegistry.Proofs.Settings.Variables
import PersonRegistry.Proofs.Text.Ascii
import PersonRegistry.Proofs.Time.SortedTexts
import PersonRegistry.Proofs.Spellings
import PersonRegistry.Proofs.Store.ReadableRows
import PersonRegistry.Proofs.Web.Spellings
import PersonRegistry.Proofs.Web.Layers
import PersonRegistry.Proofs.Web.RequestIds

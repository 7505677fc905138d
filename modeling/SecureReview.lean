import SecureReview.Archive.Feedback
import SecureReview.Archive.Label
import SecureReview.Archive.Schema
import SecureReview.Cache.Answers
import SecureReview.Cache.Results
import SecureReview.CommandLine.Dispatch
import SecureReview.CommandLine.Help
import SecureReview.CommandLine.Options
import SecureReview.CommandLine.Scan
import SecureReview.Compliance.Report
import SecureReview.Context.Extract
import SecureReview.Context.Tree
import SecureReview.Cost.Entry
import SecureReview.Cost.Ledger
import SecureReview.Diff.Blocks
import SecureReview.Diff.Unified
import SecureReview.Digest.Sha256
import SecureReview.Failure
import SecureReview.Fix.Patch
import SecureReview.Fix.Prompt
import SecureReview.Fix.Suggestion
import SecureReview.Fix.Syntax
import SecureReview.Fix.Template
import SecureReview.Host.Client
import SecureReview.Json.Access
import SecureReview.Json.Basic
import SecureReview.Json.Display
import SecureReview.Json.Loose
import SecureReview.Json.Parser
import SecureReview.Json.Printer
import SecureReview.Json.Token
import SecureReview.Limit.Bucket
import SecureReview.Listing.Format
import SecureReview.Main
import SecureReview.Metrics.Score
import SecureReview.Monitor.Metrics
import SecureReview.Monitor.Tracker
import SecureReview.Notify.Message
import SecureReview.Number.Binary
import SecureReview.Number.Decimal
import SecureReview.Number.Num
import SecureReview.Number.Whole
import SecureReview.Path
import SecureReview.Pattern.Basic
import SecureReview.Privacy.Redaction
import SecureReview.Privacy.Secret
import SecureReview.Proofs.Archive.Statistics
import SecureReview.Proofs.Cache.Answers
import SecureReview.Proofs.Cache.Invalidation
import SecureReview.Proofs.Cache.Keys
import SecureReview.Proofs.Cache.Results
import SecureReview.Proofs.Cache.Verdicts
import SecureReview.Proofs.CommandLine.Changes
import SecureReview.Proofs.CommandLine.ExitCode
import SecureReview.Proofs.Compliance.Order
import SecureReview.Proofs.Context.Extraction
import SecureReview.Proofs.Context.Offsets
import SecureReview.Proofs.Context.ShortName
import SecureReview.Proofs.Cost.Entries
import SecureReview.Proofs.Cost.Months
import SecureReview.Proofs.Cost.Queries
import SecureReview.Proofs.Cost.Repeats
import SecureReview.Proofs.Diff.Unified
import SecureReview.Proofs.Fix.Answers
import SecureReview.Proofs.Fix.Applied
import SecureReview.Proofs.Fix.Backup
import SecureReview.Proofs.Fix.Languages
import SecureReview.Proofs.Fix.Suggested
import SecureReview.Proofs.Json.Fields
import SecureReview.Proofs.Json.Numerals
import SecureReview.Proofs.Json.Reading
import SecureReview.Proofs.Limit.Bound
import SecureReview.Proofs.Limit.Keys
import SecureReview.Proofs.Listing.Gate
import SecureReview.Proofs.Listing.ReadBack
import SecureReview.Proofs.Listing.Threshold
import SecureReview.Proofs.Monitor.Tracking
import SecureReview.Proofs.Number.Rounding
import SecureReview.Proofs.Number.Shortest
import SecureReview.Proofs.Pattern.Match
import SecureReview.Proofs.Privacy.Address
import SecureReview.Proofs.Privacy.Findings
import SecureReview.Proofs.Privacy.Sanitized
import SecureReview.Proofs.Privacy.Scrubbing
import SecureReview.Proofs.Privacy.Substitution
import SecureReview.Proofs.Privacy.UserNames
import SecureReview.Proofs.Review.AllClear
import SecureReview.Proofs.Review.Handed
import SecureReview.Proofs.Review.Inspection
import SecureReview.Proofs.Review.Quiet
import SecureReview.Proofs.Review.Report
import SecureReview.Proofs.Review.Silence
import SecureReview.Proofs.Rules.Atomicity
import SecureReview.Proofs.Rules.Exchange
import SecureReview.Proofs.Rules.Keys
import SecureReview.Proofs.Rules.Rows
import SecureReview.Proofs.Rules.Session
import SecureReview.Proofs.Scan.AllFiles
import SecureReview.Proofs.Scan.ClangTidy
import SecureReview.Proofs.Scan.Contexts
import SecureReview.Proofs.Scan.Diagnostics
import SecureReview.Proofs.Scan.Ecosystems
import SecureReview.Proofs.Scan.Findings
import SecureReview.Proofs.Scan.Lints
import SecureReview.Proofs.Scan.Reports
import SecureReview.Proofs.Scan.Repository
import SecureReview.Proofs.Scan.Tools
import SecureReview.Proofs.Scan.Vulnerabilities
import SecureReview.Proofs.Time.Calendar
import SecureReview.Proofs.Time.Days
import SecureReview.Proofs.Time.Score
import SecureReview.Proofs.Time.Written
import SecureReview.Proofs.Validation.Checked
import SecureReview.Proofs.Verify.Batches
import SecureReview.Proofs.Verify.Degradation
import SecureReview.Proofs.Verify.Disclosure
import SecureReview.Proofs.Verify.Legality
import SecureReview.Proofs.Verify.Provider
import SecureReview.Proofs.Verify.Request
import SecureReview.Proofs.Verify.Returned
import SecureReview.Proofs.Verify.Vendors
import SecureReview.Proofs.Webhook.Queue
import SecureReview.Proofs.Webhook.Signature
import SecureReview.Proofs.World.Effect
import SecureReview.Proofs.World.Files
import SecureReview.Proofs.World.Host
import SecureReview.Proofs.World.Run
import SecureReview.Review.PullRequest
import SecureReview.Rules.Draft
import SecureReview.Rules.Session
import SecureReview.Rules.Table
import SecureReview.Scan.Bandit
import SecureReview.Scan.Cargo
import SecureReview.Scan.Changes
import SecureReview.Scan.Cpp
import SecureReview.Scan.Dependencies
import SecureReview.Scan.Enriched
import SecureReview.Scan.Eslint
import SecureReview.Scan.Gosec
import SecureReview.Scan.Registry
import SecureReview.Scan.Spotbugs
import SecureReview.Scan.Trouble
import SecureReview.Service.Pages
import SecureReview.Settings
import SecureReview.Settings.DotEnv
import SecureReview.Settings.Environment
import SecureReview.Store.Basic
import SecureReview.Text.Alphanumeric
import SecureReview.Text.Base64
import SecureReview.Text.Blank
import SecureReview.Text.Case
import SecureReview.Text.Lines
import SecureReview.Text.Numeral
import SecureReview.Text.Printable
import SecureReview.Text.Quoted
import SecureReview.Text.Search
import SecureReview.Text.Utf8
import SecureReview.Time.Date
import SecureReview.Time.Reader
import SecureReview.Time.Stamp
import SecureReview.Validation.Coercion
import SecureReview.Verify.Prompt
import SecureReview.Verify.Provider
import SecureReview.Verify.Verdict
import SecureReview.Verify.Verifier
import SecureReview.Webhook.Event
import SecureReview.Workload.All
import SecureReview.Workload.Basic
import SecureReview.Workload.Models
import SecureReview.Workload.Reports
import SecureReview.Workload.Scans
import SecureReview.Workload.Stores
import SecureReview.World.Basic
import SecureReview.World.Files
import SecureReview.World.Reader
import SecureReview.World.Report
import SecureReview.World.Script
import SecureReview.Xml.Content
import SecureReview.Xml.Parser
import SecureReview.Xml.Prolog
import SecureReview.Xml.Token
import SecureReview.Proofs.Limit.Waiting
import SecureReview.Proofs.Notify.Backoff
import SecureReview.Proofs.Rules.Imports
import SecureReview.Proofs.Context.Windows

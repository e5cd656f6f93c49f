import ClassAtlas.Catalog.Basic
import ClassAtlas.Catalog.Scan
import ClassAtlas.Catalog.TextCache
import ClassAtlas.Cli.Command
import ClassAtlas.Cli.Flag
import ClassAtlas.Cli.Run
import ClassAtlas.Cli.Suggestion
import ClassAtlas.Collection.KeyOrder
import ClassAtlas.Collection.SortedMap
import ClassAtlas.Collection.Unvisited
import ClassAtlas.Dependency.Extract
import ClassAtlas.Dependency.Rules
import ClassAtlas.Digest.Sha256
import ClassAtlas.Disk.Basic
import ClassAtlas.Export
import ClassAtlas.Expose.Callers
import ClassAtlas.Expose.Report
import ClassAtlas.Graph.Basic
import ClassAtlas.Graph.Build
import ClassAtlas.Graph.Diff
import ClassAtlas.Graph.Document
import ClassAtlas.Graph.Modules
import ClassAtlas.Http.Body
import ClassAtlas.Http.Query
import ClassAtlas.Http.Route
import ClassAtlas.Http.Server
import ClassAtlas.Impact.Analysis
import ClassAtlas.Impact.Change
import ClassAtlas.Impact.Patch
import ClassAtlas.Interrupt
import ClassAtlas.Json.Access
import ClassAtlas.Json.Basic
import ClassAtlas.Json.Decode
import ClassAtlas.Json.Reader
import ClassAtlas.Json.Shape
import ClassAtlas.Main
import ClassAtlas.Number.Binary
import ClassAtlas.Number.Literal
import ClassAtlas.Path
import ClassAtlas.Proofs.Catalog.Exact
import ClassAtlas.Proofs.Catalog.LinkedRoot
import ClassAtlas.Proofs.Catalog.Names
import ClassAtlas.Proofs.Catalog.Places
import ClassAtlas.Proofs.Catalog.Readings
import ClassAtlas.Proofs.Catalog.RelativePaths
import ClassAtlas.Proofs.Catalog.Scan
import ClassAtlas.Proofs.Catalog.StableText
import ClassAtlas.Proofs.Catalog.Transparency
import ClassAtlas.Proofs.Collection.SortedMap
import ClassAtlas.Proofs.Dependency.Extract
import ClassAtlas.Proofs.Dependency.References
import ClassAtlas.Proofs.Dependency.Textual
import ClassAtlas.Proofs.Disk.Links
import ClassAtlas.Proofs.Disk.Tree
import ClassAtlas.Proofs.Export.Batches
import ClassAtlas.Proofs.Export.Counted
import ClassAtlas.Proofs.Expose.Balance
import ClassAtlas.Proofs.Expose.Callers
import ClassAtlas.Proofs.Expose.Relation
import ClassAtlas.Proofs.Graph.Acceptance
import ClassAtlas.Proofs.Graph.Build
import ClassAtlas.Proofs.Graph.Cancelled
import ClassAtlas.Proofs.Graph.ChangeRatio
import ClassAtlas.Proofs.Graph.Changes
import ClassAtlas.Proofs.Graph.Completed
import ClassAtlas.Proofs.Graph.Construction
import ClassAtlas.Proofs.Graph.Diff
import ClassAtlas.Proofs.Graph.Document
import ClassAtlas.Proofs.Graph.DocumentJson
import ClassAtlas.Proofs.Graph.Guarded
import ClassAtlas.Proofs.Graph.Loading
import ClassAtlas.Proofs.Graph.Order
import ClassAtlas.Proofs.Graph.Projection
import ClassAtlas.Proofs.Graph.Refinement
import ClassAtlas.Proofs.Graph.Representation
import ClassAtlas.Proofs.Graph.Runs
import ClassAtlas.Proofs.Graph.Spelling
import ClassAtlas.Proofs.Graph.StructureText
import ClassAtlas.Proofs.Graph.Tally
import ClassAtlas.Proofs.Graph.Views
import ClassAtlas.Proofs.Graph.WellFormed
import ClassAtlas.Proofs.Impact.Classes
import ClassAtlas.Proofs.Impact.Coverage
import ClassAtlas.Proofs.Impact.Modules
import ClassAtlas.Proofs.Impact.PatchPaths
import ClassAtlas.Proofs.Impact.Search
import ClassAtlas.Proofs.Impact.Seeds
import ClassAtlas.Proofs.Json.Cut
import ClassAtlas.Proofs.Json.Reading
import ClassAtlas.Proofs.Json.Records
import ClassAtlas.Proofs.Json.Strings
import ClassAtlas.Proofs.Path.Below
import ClassAtlas.Proofs.Path.Relative
import ClassAtlas.Proofs.Path.Shape
import ClassAtlas.Proofs.Service.Isolation
import ClassAtlas.Proofs.Service.Outcome
import ClassAtlas.Proofs.Service.RootFence
import ClassAtlas.Proofs.Service.Snapshots
import ClassAtlas.Proofs.Settings.Environment
import ClassAtlas.Proofs.Snapshot.Content
import ClassAtlas.Proofs.Snapshot.History
import ClassAtlas.Proofs.Snapshot.Interleaving
import ClassAtlas.Proofs.Snapshot.Keys
import ClassAtlas.Proofs.Snapshot.Session
import ClassAtlas.Proofs.Snapshot.Shelf
import ClassAtlas.Proofs.Source.Imports
import ClassAtlas.Proofs.Source.Word
import ClassAtlas.Proofs.Source.WordSearch
import ClassAtlas.Proofs.Text.Blank
import ClassAtlas.Proofs.Text.Case
import ClassAtlas.Proofs.Text.Decimal
import ClassAtlas.Proofs.Text.Parts
import ClassAtlas.Proofs.Text.Utf8
import ClassAtlas.Proofs.Trace.Aggregation
import ClassAtlas.Proofs.Trace.Chains
import ClassAtlas.Proofs.Trace.Comments
import ClassAtlas.Proofs.Trace.Concatenation
import ClassAtlas.Proofs.Trace.Exactness
import ClassAtlas.Proofs.Trace.FirstArgument
import ClassAtlas.Proofs.Trace.Grouping
import ClassAtlas.Proofs.Trace.Interrupted
import ClassAtlas.Proofs.Trace.MatchLog
import ClassAtlas.Proofs.Trace.Occurrence
import ClassAtlas.Proofs.Trace.Patterns
import ClassAtlas.Proofs.Trace.Plan
import ClassAtlas.Proofs.Trace.Visits
import ClassAtlas.Proofs.Watch.Batch
import ClassAtlas.Proofs.Watch.Sources
import ClassAtlas.Proofs.Watch.Splitting
import ClassAtlas.Report.Decode
import ClassAtlas.Report.Drawing
import ClassAtlas.Report.Output
import ClassAtlas.Report.Shapes
import ClassAtlas.Report.Summary
import ClassAtlas.Report.Views
import ClassAtlas.Service.Analysis
import ClassAtlas.Service.Basic
import ClassAtlas.Service.Replies
import ClassAtlas.Service.RootPolicy
import ClassAtlas.Settings.Basic
import ClassAtlas.Settings.DotEnv
import ClassAtlas.Settings.Uri
import ClassAtlas.Snapshot.Archive
import ClassAtlas.Snapshot.File
import ClassAtlas.Snapshot.Info
import ClassAtlas.Snapshot.Opening
import ClassAtlas.Snapshot.Store
import ClassAtlas.Source.ClassName
import ClassAtlas.Source.Declared
import ClassAtlas.Source.Scan
import ClassAtlas.Source.Word
import ClassAtlas.Startup
import ClassAtlas.Tables
import ClassAtlas.Telemetry
import ClassAtlas.Text.Base64
import ClassAtlas.Text.Basic
import ClassAtlas.Text.Blank
import ClassAtlas.Text.Case
import ClassAtlas.Text.Decimal
import ClassAtlas.Text.Printable
import ClassAtlas.Text.Quoted
import ClassAtlas.Text.Truth
import ClassAtlas.Text.Utf8
import ClassAtlas.Time.Civil
import ClassAtlas.Time.Duration
import ClassAtlas.Trace.Argument
import ClassAtlas.Trace.Declaration
import ClassAtlas.Trace.Match
import ClassAtlas.Trace.Signature
import ClassAtlas.Trace.Walk
import ClassAtlas.Watch.Change
import ClassAtlas.Watch.Glob
import ClassAtlas.Watch.Live
import ClassAtlas.Yaml.Node
import ClassAtlas.Yaml.Scalar
import ClassAtlas.Yaml.Scan
import ClassAtlas.Yaml.Token
import ClassAtlas.Yaml.Value

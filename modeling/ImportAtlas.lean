import ImportAtlas.Analysis.Batch
import ImportAtlas.Analysis.Pool
import ImportAtlas.Analysis.Report
import ImportAtlas.Analysis.Run
import ImportAtlas.Codec.Basic
import ImportAtlas.Codec.Document
import ImportAtlas.Codec.Graph
import ImportAtlas.Codec.ReadError
import ImportAtlas.Codec.Record
import ImportAtlas.Codec.Settings
import ImportAtlas.CommandLine.Arguments
import ImportAtlas.CommandLine.Execution
import ImportAtlas.CommandLine.Help
import ImportAtlas.CommandLine.Invocation
import ImportAtlas.CommandLine.Options
import ImportAtlas.CommandLine.Reading
import ImportAtlas.Decimal.Binary
import ImportAtlas.Decimal.Shortest
import ImportAtlas.Dictionary
import ImportAtlas.Error
import ImportAtlas.Files.Route
import ImportAtlas.Files.Tree
import ImportAtlas.Glob.Match
import ImportAtlas.Glob.Pattern
import ImportAtlas.Graph.Basic
import ImportAtlas.Graph.Build
import ImportAtlas.Graph.Check
import ImportAtlas.Graph.Components
import ImportAtlas.Graph.Dependents
import ImportAtlas.Graph.Digraph
import ImportAtlas.Graph.Numbering
import ImportAtlas.Graph.Statistics
import ImportAtlas.Impact
import ImportAtlas.Import.Classify
import ImportAtlas.Import.Resolver
import ImportAtlas.Import.Specifier
import ImportAtlas.Import.SymbolTable
import ImportAtlas.Indexed
import ImportAtlas.Json.Basic
import ImportAtlas.Json.Numeral
import ImportAtlas.Json.Reading
import ImportAtlas.Main
import ImportAtlas.Path.Normal
import ImportAtlas.Proofs.Digraph.Reach
import ImportAtlas.Proofs.Graph.Places
import ImportAtlas.Proofs.Graph.WellFormed
import ImportAtlas.Proofs.Outcome
import ImportAtlas.Render.Csv
import ImportAtlas.Render.Dot
import ImportAtlas.Render.Paint
import ImportAtlas.Render.Renderer
import ImportAtlas.Render.Text
import ImportAtlas.Repository.Basic
import ImportAtlas.Repository.Check
import ImportAtlas.Repository.Reading
import ImportAtlas.Settings.Basic
import ImportAtlas.Settings.Check
import ImportAtlas.Settings.Environment
import ImportAtlas.Settings.Source
import ImportAtlas.Settings.Template
import ImportAtlas.Text.Blank
import ImportAtlas.Text.Digits
import ImportAtlas.Text.Split
import ImportAtlas.Text.Visible
import ImportAtlas.Time.Date
import ImportAtlas.Time.Instant
import ImportAtlas.Time.Reading
import ImportAtlas.Toml.Quoted
import ImportAtlas.Toml.Reading
import ImportAtlas.Toml.Scalar
import ImportAtlas.Toml.Table
import ImportAtlas.Proofs.Search.State
import ImportAtlas.Proofs.Search.Complete
import ImportAtlas.Proofs.Search.Run
import ImportAtlas.Proofs.Graph.Cycles
import ImportAtlas.Proofs.Dictionary
import ImportAtlas.Proofs.Digraph.Layers
import ImportAtlas.Proofs.Digraph.Traversal
import ImportAtlas.Proofs.Graph.Impact
import ImportAtlas.Proofs.Import.SymbolTable
import ImportAtlas.Proofs.Graph.Build
import ImportAtlas.Proofs.Path.Normal
import ImportAtlas.Proofs.Import.Alias
import ImportAtlas.Proofs.Import.Candidates
import ImportAtlas.Proofs.DepthFirst
import ImportAtlas.Proofs.Search.Order
import ImportAtlas.Proofs.Graph.CycleOrder
import ImportAtlas.Proofs.Graph.CycleImpact
import ImportAtlas.Proofs.Pool.Transition
import ImportAtlas.Proofs.Pool.Phase
import ImportAtlas.Proofs.Pool.Invariant
import ImportAtlas.Proofs.Pool.Closing
import ImportAtlas.Proofs.Pool.Outcome
import ImportAtlas.Proofs.Analysis.Agreement
import ImportAtlas.Proofs.Graph.Assembly
import ImportAtlas.Proofs.Glob.Compiled
import ImportAtlas.Proofs.Import.TopLevel
import ImportAtlas.Proofs.Import.Resolution
import ImportAtlas.Proofs.Graph.Objections
import ImportAtlas.Proofs.Analysis.Failure
import ImportAtlas.Proofs.Graph.Locality
import ImportAtlas.Proofs.Unseen
import ImportAtlas.Proofs.Import.Growth
import ImportAtlas.Proofs.Settings.Environment
import ImportAtlas.Proofs.Settings.Layering
import ImportAtlas.Proofs.Json.Grammar
import ImportAtlas.Proofs.Json.Writing
import ImportAtlas.Proofs.Codec.Change
import ImportAtlas.Proofs.Codec.Record
import ImportAtlas.Proofs.Codec.Repository
import ImportAtlas.Proofs.Codec.Graph
import ImportAtlas.Proofs.Codec.Settings
import ImportAtlas.Proofs.Codec.RoundTrip
import ImportAtlas.Proofs.Repository.Violations
import ImportAtlas.Proofs.Repository.Reading
import ImportAtlas.Proofs.Impact
import ImportAtlas.Proofs.Table.Reading
import ImportAtlas.Proofs.Text.ByteOrder
import ImportAtlas.Proofs.Table.Content
import ImportAtlas.Proofs.Graph.Fans
import ImportAtlas.Proofs.Table.Tallies
import ImportAtlas.Proofs.Analysis.Views
import ImportAtlas.Proofs.Files.Write
import ImportAtlas.Proofs.CommandLine.Effects
import ImportAtlas.Proofs.Graph.DirectImports
import ImportAtlas.Proofs.CommandLine.CycleGate
import ImportAtlas.Proofs.Settings.Validated
import ImportAtlas.Proofs.Path.Names
import ImportAtlas.Proofs.Import.Exact
import ImportAtlas.Proofs.Import.Relative
import ImportAtlas.Proofs.Path.Movement
import ImportAtlas.Proofs.Path.Canonical
import ImportAtlas.Proofs.Text.Blank
import ImportAtlas.Proofs.Import.Separators
import ImportAtlas.Proofs.Import.Respelling
import ImportAtlas.Proofs.Graph.Blanks
import ImportAtlas.Proofs.Graph.BoundedImpact
import ImportAtlas.Proofs.Graph.ImpactLayers
import ImportAtlas.Proofs.Analysis.Summaries
import ImportAtlas.Proofs.Analysis.Ranking
import ImportAtlas.Proofs.Graph.Additions
import ImportAtlas.Proofs.Graph.Numbering
import ImportAtlas.Proofs.Drawing.Names
import ImportAtlas.Proofs.Drawing.Reading
import ImportAtlas.Proofs.Drawing.Outcome
import ImportAtlas.Proofs.Colours.Sequences
import ImportAtlas.Proofs.Colours.Outcome
import ImportAtlas.Proofs.Settings.Lists
import ImportAtlas.Proofs.Settings.Acceptance
import ImportAtlas.Proofs.Search.Trace
import ImportAtlas.Proofs.Graph.CycleSearch
import ImportAtlas.Proofs.Codec.Members
import ImportAtlas.Proofs.Toml.Quoted
import ImportAtlas.Proofs.Toml.Numbers
import ImportAtlas.Proofs.Toml.Values
import ImportAtlas.Proofs.Toml.Lines
import ImportAtlas.Proofs.Toml.Tables
import ImportAtlas.Proofs.Toml.Spellings
import ImportAtlas.Proofs.Settings.Document
import ImportAtlas.Proofs.Settings.Template
import ImportAtlas.Proofs.Settings.Uncommented

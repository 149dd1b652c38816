import PackageCycles.Analysis.Basic
import PackageCycles.Analysis.Report
import PackageCycles.Analysis.Source
import PackageCycles.Command.Check
import PackageCycles.Command.Completion
import PackageCycles.Command.Draw
import PackageCycles.Command.Flag
import PackageCycles.Command.Options
import PackageCycles.Command.Program
import PackageCycles.Cycle
import PackageCycles.Decimal
import PackageCycles.Detector
import PackageCycles.Dotenv
import PackageCycles.Duration
import PackageCycles.Environment
import PackageCycles.Event
import PackageCycles.Exclusion
import PackageCycles.FileTree.Basic
import PackageCycles.FileTree.Change
import PackageCycles.FileTree.Replace
import PackageCycles.Graph.Basic
import PackageCycles.Graph.Reach
import PackageCycles.Import.Cache
import PackageCycles.Import.Extract
import PackageCycles.Import.Owner
import PackageCycles.Import.Statement
import PackageCycles.Integer
import PackageCycles.Json
import PackageCycles.Lint.CycleRule
import PackageCycles.Lint.Enforcement
import PackageCycles.Lint.Rule
import PackageCycles.Log.Entry
import PackageCycles.Log.Level
import PackageCycles.Log.Line
import PackageCycles.Log.Time
import PackageCycles.Main
import PackageCycles.Metrics
import PackageCycles.Ordered
import PackageCycles.Path
import PackageCycles.Pattern.Capture
import PackageCycles.Pattern.CaseTable
import PackageCycles.Pattern.CharSet
import PackageCycles.Pattern.Fault
import PackageCycles.Pattern.Matcher
import PackageCycles.Pattern.Parser
import PackageCycles.Pattern.Regex
import PackageCycles.Pattern.Scanner
import PackageCycles.Proofs.Analysis.CachedLoad
import PackageCycles.Proofs.Analysis.FileAccounts
import PackageCycles.Proofs.Analysis.LoadedGraph
import PackageCycles.Proofs.Analysis.Strays
import PackageCycles.Proofs.Command.ExitCode
import PackageCycles.Proofs.Command.Layering
import PackageCycles.Proofs.Cycle.Key
import PackageCycles.Proofs.Cycle.NormalForm
import PackageCycles.Proofs.Cycle.Rotation
import PackageCycles.Proofs.Detection.AmpleBound
import PackageCycles.Proofs.Detection.Arrivals
import PackageCycles.Proofs.Detection.Completeness
import PackageCycles.Proofs.Detection.CyclicPackages
import PackageCycles.Proofs.Detection.DistinctReports
import PackageCycles.Proofs.Detection.FirstArrival
import PackageCycles.Proofs.Detection.FreshSearch
import PackageCycles.Proofs.Detection.RaisedBound
import PackageCycles.Proofs.Detection.RootSearch
import PackageCycles.Proofs.Detection.Soundness
import PackageCycles.Proofs.Detection.StepCover
import PackageCycles.Proofs.Exclusion.WholeNames
import PackageCycles.Proofs.FileTree.Spelling
import PackageCycles.Proofs.FileTree.Strays
import PackageCycles.Proofs.FileTree.WellFormed
import PackageCycles.Proofs.Graph.Adjacency
import PackageCycles.Proofs.Graph.Edges
import PackageCycles.Proofs.Graph.Reachability
import PackageCycles.Proofs.Graph.TransitiveClosure
import PackageCycles.Proofs.Graph.Walk
import PackageCycles.Proofs.Import.Extraction
import PackageCycles.Proofs.Import.Owners
import PackageCycles.Proofs.Import.Transparency
import PackageCycles.Proofs.Import.Written
import PackageCycles.Proofs.Lint.CycleRule
import PackageCycles.Proofs.Lint.EqualIds
import PackageCycles.Proofs.Lint.Policy
import PackageCycles.Proofs.Lint.Registration
import PackageCycles.Proofs.Ordered
import PackageCycles.Proofs.Path.NormalForm
import PackageCycles.Proofs.Pattern.Anchoring
import PackageCycles.Proofs.Pattern.Blanks
import PackageCycles.Proofs.Pattern.CountedGroups
import PackageCycles.Proofs.Pattern.Counting
import PackageCycles.Proofs.Pattern.Escapes
import PackageCycles.Proofs.Pattern.Groups
import PackageCycles.Proofs.Pattern.Numbering
import PackageCycles.Proofs.Pattern.Openings
import PackageCycles.Proofs.Pattern.Passing
import PackageCycles.Proofs.Pattern.Reading
import PackageCycles.Proofs.Pattern.Sets
import PackageCycles.Proofs.Pattern.Stretches
import PackageCycles.Proofs.Pattern.WholeMatch
import PackageCycles.Proofs.Pattern.Wrapped
import PackageCycles.Proofs.Scan.Order
import PackageCycles.Proofs.Scan.Trails
import PackageCycles.Proofs.Search.Invariant
import PackageCycles.Proofs.Search.Iterations
import PackageCycles.Proofs.Search.Recursion
import PackageCycles.Proofs.Search.Refinement
import PackageCycles.Proofs.Settings.CacheId
import PackageCycles.Proofs.Settings.Layers
import PackageCycles.Proofs.Settings.PatternLists
import PackageCycles.Proofs.Settings.Validation
import PackageCycles.Proofs.Shutdown.ExactlyOnce
import PackageCycles.Proofs.Text.Pieces
import PackageCycles.Proofs.Text.Quoting
import PackageCycles.Proofs.Text.Separator
import PackageCycles.Proofs.Text.Trim
import PackageCycles.Proofs.View.Closure
import PackageCycles.Proofs.View.DotText
import PackageCycles.Proofs.View.Expansion
import PackageCycles.Proofs.View.HopLimit
import PackageCycles.Proofs.View.Marks
import PackageCycles.Proofs.View.RepeatedEdges
import PackageCycles.Proofs.View.Subgraph
import PackageCycles.Proofs.Watch.Freshness
import PackageCycles.Proofs.Watch.Relevance
import PackageCycles.Proofs.Yaml.Related
import PackageCycles.Scan
import PackageCycles.Search.Basic
import PackageCycles.Search.Recursive
import PackageCycles.Session
import PackageCycles.Settings.Basic
import PackageCycles.Settings.File
import PackageCycles.Settings.Variables
import PackageCycles.Shutdown
import PackageCycles.Store
import PackageCycles.Text.Base64
import PackageCycles.Text.Basic
import PackageCycles.Text.Blank
import PackageCycles.Text.Case
import PackageCycles.Text.Quoted
import PackageCycles.Text.Utf16
import PackageCycles.Text.Utf8
import PackageCycles.Unicode.Category
import PackageCycles.Unicode.Lower
import PackageCycles.Unicode.Property
import PackageCycles.View.Basic
import PackageCycles.View.Drawing
import PackageCycles.Watch.Basic
import PackageCycles.Watch.Change
import PackageCycles.Watch.Poll
import PackageCycles.Yaml.Cursor
import PackageCycles.Yaml.Node
import PackageCycles.Yaml.Record
import PackageCycles.Yaml.Scalar
import PackageCycles.Yaml.Source
import PackageCycles.Yaml.Token
import PackageCycles.Yaml.Writer

import PackageCycles.Analysis.Report
import PackageCycles.Exclusion
import PackageCycles.Settings.Basic

/-!
# Analysis of a project

An analysis loads the graph of a source directory and looks for cycles in it. A source directory
that does not exist is no failure: there is nothing to check. What identifies an analysis and how
long its parts take is given from outside (`Run`), so that an analysis is a function of the tree and
the cache.
-/

namespace PackageCycles

/-- The trace and the span that an analysis is recorded under. -/
structure TraceContext where
  /-- What identifies the trace. -/
  traceId : Text
  /-- What identifies the span. -/
  spanId : Text
  deriving DecidableEq

/-- What an analysis does not determine itself. -/
structure Run where
  /-- What identifies the analysis. -/
  id : Text
  /-- How long its parts take. -/
  timing : Timing
  /-- The trace that it is recorded in, if it is. -/
  trace : Option TraceContext
  deriving DecidableEq

/-- Settings that cannot be analysed with. -/
inductive SettingsError where
  /-- A rule is not kept. -/
  | violation (cause : Settings.Violation)
  /-- A pattern is malformed. -/
  | pattern (cause : PatternError)

/-- The wording of the error. -/
def SettingsError.message : SettingsError → Text
  | .violation cause => ("invalid configuration: " : Text) ++ cause.message
  | .pattern cause => ("invalid configuration: " : Text) ++ cause.message

/-- An analysis that failed. -/
structure AnalysisError where
  /-- The source directory. -/
  root : Text
  /-- Why its graph could not be loaded. -/
  cause : SourceError
  deriving DecidableEq

/-- The wording of the error. -/
def AnalysisError.message (e : AnalysisError) : Text :=
  ("failed to load dependency graph from " : Text) ++ e.root ++ ": " ++ e.cause.message

/-- What it takes to analyse a project. -/
structure Analyzer where
  /-- The name of the project. -/
  project : Text
  /-- The packages left out. -/
  exclusion : Exclusion
  /-- What looks for cycles. -/
  detector : Detector
  /-- Where the graph comes from. -/
  source : Source

/-- The outcome of an analysis. -/
structure Analysis where
  /-- The report, or why there is none. -/
  result : Except AnalysisError Report
  /-- The import cache afterwards. -/
  cache : Option Import.Cache
  /-- What happened. -/
  events : List Event

namespace Analyzer

/-- The analyzer of settings that keep the rules and whose patterns are well-formed. -/
def new (s : Settings) : Except SettingsError Analyzer := do
  s.validate.mapError .violation
  let exclusion ← (Exclusion.compile s.excludePatterns).mapError .pattern
  return ⟨s.projectName, exclusion, s.detector, .ofFiles s.fileSuffix exclusion.excludes⟩

/-- The analyzer with another source. -/
def withSource (a : Analyzer) (source : Source) : Analyzer := { a with source := source }

/-- The fields that every entry about a run has. -/
def runFields (a : Analyzer) (run : Run) : Log.Fields :=
  let identity : Log.Fields := [("run_id", .text run.id), ("project", .text a.project)]
  match run.trace with
  | some trace =>
    identity ++ ([("trace_id", .text trace.traceId), ("span_id", .text trace.spanId)] : Log.Fields)
  | none => identity

/-- An entry about a run. -/
def say (a : Analyzer) (run : Run) (level : Log.Level) (message : Text) : Event :=
  .logged ((Log.entry level message).withFields (a.runFields run))

/-- The span of a run. -/
def span (a : Analyzer) (run : Run) (root : Text) (outcome : Log.Fields)
    (failure : Option Text) : Event :=
  let subject : Log.Fields :=
    [("pkgcycle.run_id", .text run.id), ("pkgcycle.project", .text a.project),
     ("pkgcycle.source_root", .text root), ("pkgcycle.max_depth", .int a.detector.maxDepth),
     ("pkgcycle.traversal", .text a.detector.traversal.name)]
  .span ⟨Span.analysis, none, subject ++ outcome, failure⟩

/-- What a run starts with. -/
def startEvent (a : Analyzer) (run : Run) : Event :=
  a.say run .info (("Starting cyclic dependency analysis for: " : Text) ++ a.project)

/-- The report on a graph. -/
def report (a : Analyzer) (run : Run) (root : Text) (loaded : LoadedGraph) : Report :=
  let cycles := a.detector.detect loaded.graph
  { runId := run.id
    project := a.project
    sourceRoot := root
    status := if cycles.isEmpty then .passed else .cycles
    counts := loaded.counts
    graph := loaded.graph
    cycles := cycles
    duration := run.timing.total }

/-- The report on a source directory that does not exist. -/
def emptyReport (a : Analyzer) (run : Run) (root : Text) : Report where
  runId := run.id
  project := a.project
  sourceRoot := root
  status := .noSource
  counts := ⟨0, 0, 0⟩
  graph := .empty
  cycles := []
  duration := run.timing.total

/-- What is logged at the end. -/
def completeEvent (a : Analyzer) (run : Run) (r : Report) : Event :=
  .logged (((Log.entry .debug "Analysis complete").withFields (a.runFields run)).withFields
    [("files", .int r.counts.scanned), ("packages", .int r.packages),
     ("cycles", .int r.cycles.length), ("duration", .duration r.duration)])

/-- What happened once the graph was loaded. -/
def reportEvents (a : Analyzer) (run : Run) (r : Report) : List Event :=
  let cycles := r.cycles.length
  [.files r.counts.scanned r.counts.skipped r.counts.failures, .graph r.packages r.edges,
    .phase "detect" run.timing.detect, .span (.part "detect" [("cycles", cycles)])] ++
    (if r.hasCycles then [] else [a.say run .info "No cyclic dependencies found"]) ++
    [.result r.status.name cycles, a.completeEvent run r,
      a.span run r.sourceRoot
        [("pkgcycle.status", .text r.status.name), ("pkgcycle.cycles", .int cycles)] none]

/-- What happened when there was no source directory. -/
def missingEvents (a : Analyzer) (run : Run) (root : Text) : List Event :=
  [a.say run .info (("Source directory not found: " : Text) ++ root),
    .result Outcome.noSource.name 0,
    a.span run root [("pkgcycle.status", .text Outcome.noSource.name)] none]

/-- What happened when the graph could not be loaded. -/
def failureEvents (a : Analyzer) (run : Run) (root : Text) (cause : SourceError) : List Event :=
  [.result "error" 0, a.span run root [] (some cause.message)]

/-- Loads the graph of a source directory and looks for cycles in it. -/
def analyze (a : Analyzer) (run : Run) (t : FileTree) (cache : Option Import.Cache) (root : Text) :
    Analysis :=
  let loading := a.source.load t cache run.timing root
  let before := a.startEvent run :: loading.events
  match loading.result with
  | .ok loaded =>
    let report := a.report run root loaded
    ⟨.ok report, loading.cache, before ++ a.reportEvents run report⟩
  | .error cause =>
    if cause.isMissing then
      ⟨.ok (a.emptyReport run root), loading.cache, before ++ a.missingEvents run root⟩
    else ⟨.error ⟨root, cause⟩, loading.cache, before ++ a.failureEvents run root cause⟩

end Analyzer

end PackageCycles

import PackageCycles.Decimal
import PackageCycles.Duration
import PackageCycles.Ordered

/-!
# Metrics

Counters, gauges and histograms about the analyses of a run, and the text in which they are handed
to a monitoring system: for each metric a line of help, a line with its type and a line for each of
its samples. Metrics come in the order of their names and samples in the order of their labels; a
metric with a label has no lines before its first sample.
-/

namespace PackageCycles

/-- How often durations of different lengths were observed. -/
structure Histogram where
  /-- The number of observations in each bucket, the last one being for those above all bounds. -/
  counts : List Nat
  /-- The sum of the observations in seconds. -/
  sum : Float

namespace Histogram

/-- The upper bounds of the buckets in seconds, each four times the one before. -/
def bounds : List Float :=
  (List.range 8).foldl (fun all _ => all ++ [(all.getLast?.getD 0) * 4]) [0.001]

/-- The histogram before the first observation. -/
def empty : Histogram := ⟨List.replicate (bounds.length + 1) 0, 0⟩

/-- The bucket of a number of seconds: the first one whose bound is not exceeded. -/
def bucketOf (seconds : Float) : Nat := (bounds.takeWhile fun bound => bound < seconds).length

/-- A duration in seconds. -/
def inSeconds (d : Duration) : Float :=
  Float.ofInt (d.nanoseconds.tdiv 1000000000) + Float.ofInt (d.nanoseconds.tmod 1000000000) / 1e9

/-- The histogram with an observation added. -/
def observe (h : Histogram) (d : Duration) : Histogram :=
  let seconds := inSeconds d
  ⟨h.counts.modify (bucketOf seconds) (· + 1), h.sum + seconds⟩

/-- The number of observations. -/
def count (h : Histogram) : Nat := h.counts.foldl (· + ·) 0

/-- For each bucket the number of observations in it and the buckets below. -/
def cumulative (counts : List Nat) (below : Nat) : List Nat :=
  match counts with
  | [] => []
  | n :: rest => (below + n) :: cumulative rest (below + n)

end Histogram

/-- What is counted over the analyses of a run. -/
structure Metrics where
  /-- Files that were scanned. -/
  filesScanned : UInt64
  /-- Files that were left out. -/
  filesSkipped : UInt64
  /-- Files that could not be read. -/
  readFailures : UInt64
  /-- Files whose imports were found in the cache. -/
  cacheHits : UInt64
  /-- Files whose imports were not found in the cache. -/
  cacheMisses : UInt64
  /-- The number of packages in the latest graph. -/
  graphPackages : Int
  /-- The number of edges in the latest graph. -/
  graphEdges : Int
  /-- The number of cycles in the latest graph. -/
  cyclesFound : Int
  /-- The number of analyses by outcome. -/
  analyses : List (Text × Nat)
  /-- How long the phases of the analyses took. -/
  phases : List (Text × Histogram)

namespace Metrics

/-- Nothing has been counted. -/
def empty : Metrics := ⟨0, 0, 0, 0, 0, 0, 0, 0, [], []⟩

/-- What a counter is after a number has been added. A counter cannot decrease. Numbers are added as
floating-point numbers. -/
def add? (counter : UInt64) (n : Int) : Option UInt64 :=
  if n < 0 then none else some (counter + (Float.ofInt n).toUInt64)

/-- Counts the files of a scan. The second component says whether all numbers could be added; those
after a negative one are not. -/
def recordScan (m : Metrics) (scanned skipped failures : Int) : Metrics × Bool :=
  match add? m.filesScanned scanned with
  | none => (m, false)
  | some n =>
    let m := { m with filesScanned := n }
    match add? m.filesSkipped skipped with
    | none => (m, false)
    | some n =>
      let m := { m with filesSkipped := n }
      match add? m.readFailures failures with
      | none => (m, false)
      | some n => ({ m with readFailures := n }, true)

/-- Counts a look into the import cache. -/
def recordLookup (m : Metrics) (hit : Bool) : Metrics :=
  if hit then { m with cacheHits := m.cacheHits + 1 }
  else { m with cacheMisses := m.cacheMisses + 1 }

/-- Notes the size of the latest graph. -/
def recordGraph (m : Metrics) (packages edges : Int) : Metrics :=
  { m with graphPackages := packages, graphEdges := edges }

/-- Counts an analysis by its outcome. -/
def recordResult (m : Metrics) (status : Text) (cycles : Int) : Metrics :=
  let before := (m.analyses.lookup status).getD 0
  { m with cyclesFound := cycles, analyses := Ordered.assign status (before + 1) m.analyses }

/-- Notes how long a phase took. -/
def recordPhase (m : Metrics) (phase : Text) (d : Duration) : Metrics :=
  let before := (m.phases.lookup phase).getD Histogram.empty
  { m with phases := Ordered.assign phase (before.observe d) m.phases }

/-! ## Writing -/

/-- The kinds of metrics. -/
inductive Kind where
  | counter
  | gauge
  | histogram
  deriving DecidableEq

/-- The name of a kind. -/
def Kind.name : Kind → Text
  | .counter => "counter"
  | .gauge => "gauge"
  | .histogram => "histogram"

/-- A metric as it is written. -/
structure Family where
  /-- Its name. -/
  name : Text
  /-- What it says. -/
  help : Text
  /-- Its kind. -/
  kind : Kind
  /-- The lines of its samples. -/
  samples : List Text

/-- The value of a label between quotes. -/
def labelValue (value : Text) : Text :=
  ("\"" : Text) ++ value.flatMap (fun b =>
    if b = Text.byte '\\' then ("\\\\" : Text)
    else if b = Text.byte '"' then "\\\""
    else if b = Text.byte '\n' then "\\n"
    else [b]) ++ "\""

/-- A sample without labels. -/
def sample (name : Text) (value : Float) : Text := name ++ " " ++ Decimal.ofFloat value

/-- A sample with labels. -/
def labelled (name : Text) (labels : List (Text × Text)) (value : Float) : Text :=
  let pairs := labels.map fun (key, value) => key ++ "=" ++ labelValue value
  name ++ "\x7b" ++ Text.join "," pairs ++ "\x7d " ++ Decimal.ofFloat value

/-- The samples of a histogram: a line for each bucket, the sum and the number of observations. -/
def histogramSamples (name phase : Text) (h : Histogram) : List Text :=
  let bounds := Histogram.bounds.map Decimal.ofFloat ++ [("+Inf" : Text)]
  let buckets := List.zipWith
    (fun bound n =>
      labelled (name ++ "_bucket") [("phase", phase), ("le", bound)] (Float.ofNat n))
    bounds (Histogram.cumulative h.counts 0)
  buckets ++ [labelled (name ++ "_sum") [("phase", phase)] h.sum,
    labelled (name ++ "_count") [("phase", phase)] (Float.ofNat h.count)]

/-- A counter without labels. -/
def counterFamily (name help : Text) (value : UInt64) : Family :=
  ⟨name, help, .counter, [sample name value.toFloat]⟩

/-- A gauge. -/
def gaugeFamily (name help : Text) (value : Int) : Family :=
  ⟨name, help, .gauge, [sample name (Float.ofInt value)]⟩

/-- The metrics in the order of their names. -/
def families (m : Metrics) : List Family :=
  let duration : Text := "pkgcycle_analysis_duration_seconds"
  [⟨"pkgcycle_analyses_total", "Analyses run, by outcome", .counter,
      m.analyses.map fun (status, n) =>
        labelled "pkgcycle_analyses_total" [("status", status)] (Float.ofNat n)⟩,
    ⟨duration, "Duration of analysis phases in seconds", .histogram,
      m.phases.flatMap fun (phase, h) => histogramSamples duration phase h⟩,
    gaugeFamily "pkgcycle_cycles_found" "Cycles reported by the last analysis" m.cyclesFound,
    counterFamily "pkgcycle_file_read_failures_total"
      "Compilation units that could not be read and contributed no edges" m.readFailures,
    counterFamily "pkgcycle_files_scanned_total"
      "Total number of compilation units scanned" m.filesScanned,
    counterFamily "pkgcycle_files_skipped_total"
      "Compilation units skipped because their package is excluded or the default package"
      m.filesSkipped,
    gaugeFamily "pkgcycle_graph_edges"
      "Distinct package edges in the last dependency graph" m.graphEdges,
    gaugeFamily "pkgcycle_graph_packages"
      "Declaring packages in the last dependency graph" m.graphPackages,
    counterFamily "pkgcycle_import_cache_hits_total"
      "Parse results served from the import cache" m.cacheHits,
    counterFamily "pkgcycle_import_cache_misses_total"
      "Files parsed because the import cache had no valid entry" m.cacheMisses]

/-- The lines of all samples. -/
def samples (m : Metrics) : List Text := m.families.flatMap (·.samples)

/-- The lines of a metric. -/
def Family.lines (f : Family) : List Text :=
  if f.samples.isEmpty then []
  else
    (("# HELP " : Text) ++ f.name ++ " " ++ f.help) ::
      (("# TYPE " : Text) ++ f.name ++ " " ++ f.kind.name) :: f.samples

/-- All metrics as text. -/
def toText (m : Metrics) : Text := m.families.flatMap fun f => f.lines.flatMap (· ++ "\n")

end Metrics

end PackageCycles

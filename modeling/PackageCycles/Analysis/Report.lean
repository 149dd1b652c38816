import PackageCycles.Analysis.Source
import PackageCycles.Cycle
import PackageCycles.Json

/-!
# Reports

The result of one analysis, with its wording as text and as JSON.
-/

namespace PackageCycles

/-- The outcome of an analysis. -/
inductive Outcome where
  /-- There is no cycle. -/
  | passed
  /-- There is a cycle. -/
  | cycles
  /-- There is no source directory. -/
  | noSource
  deriving DecidableEq

/-- The name of an outcome. -/
def Outcome.name : Outcome → Text
  | .passed => "passed"
  | .cycles => "cycles"
  | .noSource => "no-source"

/-- The result of one analysis. -/
structure Report where
  /-- What identifies the analysis. -/
  runId : Text
  /-- The project. -/
  project : Text
  /-- The source directory. -/
  sourceRoot : Text
  /-- The outcome. -/
  status : Outcome
  /-- The numbers of files. -/
  counts : FileCounts
  /-- The graph. -/
  graph : Graph
  /-- The cycles found in it. -/
  cycles : List Cycle
  /-- How long the analysis took. -/
  duration : Duration

namespace Report

/-- The number of packages that depend on something. -/
def packages (r : Report) : Nat := r.graph.packageCount

/-- The number of dependencies. -/
def edges (r : Report) : Nat := r.graph.edgeCount

/-- A cycle was found. -/
def hasCycles (r : Report) : Bool := !r.cycles.isEmpty

/-- The cycles numbered from one. -/
def numberedCycles (r : Report) : List Text :=
  r.cycles.mapIdx fun i c => ("Cycle " : Text) ++ Text.ofNat (i + 1) ++ ": " ++ c.render

/-- What is said of the cycles; nothing if there are none. -/
def message (r : Report) : Text :=
  if r.hasCycles then
    ("Cyclic dependencies found:\n" : Text) ++ r.numberedCycles.flatMap (· ++ ("\n" : Text))
  else []

/-- The report for a reader. Without `strict`, cycles are only a warning. -/
def toText (r : Report) (strict : Bool) : Text :=
  let outcome : Text :=
    match r.status with
    | .noSource =>
      ("Source directory " : Text) ++ r.sourceRoot ++ " does not exist, nothing to check\n"
    | .passed =>
      ("No cyclic dependencies found (" : Text) ++ Text.ofNat r.counts.scanned ++ " files, " ++
        Text.ofNat r.packages ++ " packages)\n"
    | .cycles =>
      r.message ++ "\n" ++ (if strict then ("FAILED" : Text) else "WARNING") ++ ": " ++
        Text.ofNat r.cycles.length ++ " cycle(s) in " ++ Text.ofNat r.packages ++ " packages (" ++
        Text.ofNat r.counts.scanned ++ " files)\n"
  let failures : Text :=
    if r.counts.failures = 0 then []
    else Text.ofNat r.counts.failures ++ " file(s) could not be read\n"
  outcome ++ failures

/-- The cycles as annotations of a build. -/
def toAnnotations (r : Report) (strict : Bool) : Text :=
  r.numberedCycles.flatMap fun cycle =>
    ("::" : Text) ++ (if strict then ("error" : Text) else "warning") ++
      " title=Cyclic package dependency::" ++ cycle ++ "\n"

/-- The report as JSON. -/
def toJson (r : Report) : Json :=
  .object
    [("runId", .text r.runId), ("project", .text r.project), ("sourceRoot", .text r.sourceRoot),
     ("status", .text r.status.name), ("filesScanned", .int r.counts.scanned),
     ("filesSkipped", .int r.counts.skipped), ("readFailures", .int r.counts.failures),
     ("packages", .int r.packages), ("edges", .int r.edges),
     ("cycles", .list (r.cycles.map fun c => .list (c.map .text))),
     ("duration", .int r.duration.nanoseconds)]

end Report

end PackageCycles

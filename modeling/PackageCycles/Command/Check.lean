import PackageCycles.Command.Completion

/-!
# The check

The check enforces the rule against cycles on a project, prints a report and writes the metrics.
Printing the report cannot fail: there is no counterpart to a stream that refuses the document and
makes the check end with 2.
-/

namespace PackageCycles

/-- The formats of a report. -/
inductive ReportFormat where
  /-- For a reader. -/
  | text
  /-- As a document. -/
  | json
  /-- As annotations of a build. -/
  | annotations
  deriving DecidableEq

/-- The format with a name. -/
def ReportFormat.ofName? (name : Text) : Option ReportFormat :=
  if name = "text" then some .text
  else if name = "json" then some .json
  else if name = "github" then some .annotations
  else none

namespace Check

/-- No violation is an error. -/
def passed (e : Enforcement) : Bool := e.summary.errors = 0

/-- The report as a document. -/
def toJson (r : Report) (e : Enforcement) : Json :=
  .object
    [("passed", .bool (passed e)), ("report", r.toJson), ("summary", e.summary.toJson),
     ("violations", .list (e.violations.map Violation.toJson))]

/-- The report in a format. -/
def render (format : ReportFormat) (s : Settings) (r : Report) (e : Enforcement) : Text :=
  match format with
  | .text => r.toText s.failOnError
  | .json => (toJson r e).pretty
  | .annotations => r.toAnnotations s.failOnError

/-- What is printed: the report, unless a rule could not be checked. -/
def output (format : ReportFormat) (s : Settings) (e : Enforcement) : Text :=
  match e.error, e.reports.head? with
  | some (.rule ..), _ => []
  | _, some report => render format s report e
  | _, none => []

/-- The rule against cycles enforced on a project. -/
def enforcement (s : Settings) (directory : Text) (t : FileTree) (run : Run) : Enforcement :=
  (Registry.empty.register (.noCycles s)).enforce ⟨t, none, run⟩ ⟨s.projectName, directory⟩

/-- Checks a project in a session. -/
def inSession (session : Session) (directory : Text) (format : ReportFormat) (w : World) :
    Completion :=
  let s := session.settings
  let e := enforcement s directory w.tree (session.run w)
  let written := session.writeMetrics w (Metrics.empty.after e.events)
  { tree := written.tree
    written := written.files
    out := output format s e
    err := session.lines w
      (session.startLog ++ logOf e.events ++ e.log ++ written.log ++ session.stopLog)
    error := e.error.map .enforcement
    watch := none }

/-- Checks a project under the given settings. -/
def run (s : Settings) (directory : Text) (format : ReportFormat) (w : World) : Completion :=
  match Session.start s with
  | .error cause => .failed w.tree (.logFormat cause)
  | .ok session => inSession session directory format w

/-- The settings with the file for the metrics that a flag names. -/
def withMetricsFile (path : Text) (s : Settings) : Settings :=
  if path = [] then s else { s with metricsFile := path }

/-- Checks a project as options ask. -/
def command (w : World) (env : Environment) (given : Given CheckOptions) : Completion :=
  let o := given.options
  match ReportFormat.ofName? o.format with
  | none => .failed w.tree (.reportFormat o.format)
  | some format =>
    match o.common.resolve given.names w.tree env with
    | .error cause => .failed w.tree (.resolve cause)
    | .ok s => run (withMetricsFile o.metricsFile s) o.common.directory format w

end Check

end PackageCycles

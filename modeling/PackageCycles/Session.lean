import PackageCycles.Analysis.Basic
import PackageCycles.FileTree.Replace
import PackageCycles.Settings.Basic

/-!
# Sessions

A command that analyses a project works in a session, which writes its log and, if the settings say
so, its metrics. What a command does not determine itself comes from the world around it.
-/

namespace PackageCycles

/-- The world around a command. -/
structure World where
  /-- The files. -/
  tree : FileTree
  /-- What identifies the next analysis, and how long its parts take. -/
  run : Run
  /-- The time as the log shows it. -/
  time : Text
  /-- The time of last modification of files that are written. -/
  now : Int
  /-- The digits in the names of temporary files. -/
  digits : Text

namespace TracingSettings

/-- What is logged when traces are set up. -/
def startLog (s : TracingSettings) : List Log.Entry :=
  if s.enabled then
    [Log.entry .info (("Initializing OpenTelemetry tracing with endpoint: " : Text) ++ s.endpoint),
      Log.entry .info "OpenTelemetry tracing initialized"]
  else [Log.entry .debug "OpenTelemetry tracing is disabled"]

/-- What is logged when traces are put away. -/
def stopLog (s : TracingSettings) : List Log.Entry :=
  if s.enabled then [Log.entry .debug "Tracer provider shutdown complete"] else []

end TracingSettings

/-- The outcome of writing files. -/
structure Written where
  /-- The files afterwards. -/
  tree : FileTree
  /-- The paths that were written, with the content. -/
  files : List (Text × Text)
  /-- What was logged. -/
  log : List Log.Entry

/-- What a command works with. -/
structure Session where
  /-- The settings. -/
  settings : Settings
  /-- The form of the log. -/
  format : Log.Format

namespace Session

/-- The session of settings whose log has a form. -/
def start (s : Settings) : Except Log.Format.Unknown Session := do
  return ⟨s, ← Log.Format.parse s.log.format⟩

/-- The lines of those entries that are severe enough. -/
def lines (s : Session) (w : World) (entries : List Log.Entry) : Text :=
  (Log.keep (.ofName s.settings.log.level) entries).flatMap fun e => e.line s.format w.time

/-- What is logged at the start. -/
def startLog (s : Session) : List Log.Entry := s.settings.tracing.startLog

/-- What is logged at the end. -/
def stopLog (s : Session) : List Log.Entry := s.settings.tracing.stopLog

/-- The run of the next analysis. It is recorded in a trace only if traces are. -/
def run (s : Session) (w : World) : Run :=
  { w.run with trace := if s.settings.tracing.enabled then w.run.trace else none }

/-- Writes the metrics to the file of the settings, if there is one. A failure is only logged. -/
def writeMetrics (s : Session) (w : World) (m : Metrics) : Written :=
  let path := s.settings.metricsFile
  if path = [] then ⟨w.tree, [], []⟩
  else match w.tree.replaceFile path m.toText w.digits w.now with
    | .ok t =>
      ⟨t, [(path, m.toText)], [Log.entry .debug (("Metrics written to " : Text) ++ path)]⟩
    | .error cause =>
      ⟨w.tree, [],
        [(Log.entry .warning (("Failed to write metrics to " : Text) ++ path)).withError
          cause.message]⟩

end Session

end PackageCycles

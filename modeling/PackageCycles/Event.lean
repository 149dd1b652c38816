import PackageCycles.Log.Entry
import PackageCycles.Metrics

/-!
# Events

What an analysis lets others know while it runs: entries for the log, numbers for the metrics and
spans of time for a trace. They are given as one list in the order in which they arise; the log, the
metrics and the trace are three views of it.
-/

namespace PackageCycles

/-- A stretch of work in a trace. -/
structure Span where
  /-- What was done. -/
  name : Text
  /-- The span that it was a part of. -/
  parent : Option Text
  /-- What is said about it. -/
  attributes : Log.Fields
  /-- Why it failed, if it did. -/
  failure : Option Text
  deriving DecidableEq

/-- What an analysis lets others know. -/
inductive Event where
  /-- An entry for the log. -/
  | logged (entry : Log.Entry)
  /-- How long a phase took. -/
  | phase (name : Text) (took : Duration)
  /-- A look into the import cache. -/
  | lookup (hit : Bool)
  /-- The numbers of files. -/
  | files (scanned skipped failures : Nat)
  /-- The size of the graph. -/
  | graph (packages edges : Nat)
  /-- The outcome. -/
  | result (status : Text) (cycles : Nat)
  /-- The end of a span. -/
  | span (s : Span)

namespace Event

/-- The entry for the log, if there is one. -/
def entry? : Event → Option Log.Entry
  | .logged entry => some entry
  | _ => none

/-- The span, if there is one. -/
def span? : Event → Option Span
  | .span s => some s
  | _ => none

/-- The metrics after the event. -/
def count (m : Metrics) : Event → Metrics
  | .phase name took => m.recordPhase name took
  | .lookup hit => m.recordLookup hit
  | .files scanned skipped failures => (m.recordScan scanned skipped failures).1
  | .graph packages edges => m.recordGraph packages edges
  | .result status cycles => m.recordResult status cycles
  | .logged _ => m
  | .span _ => m

end Event

/-- The entries for the log. -/
def logOf (events : List Event) : List Log.Entry := events.filterMap Event.entry?

/-- The spans, in the order in which they ended. -/
def spansOf (events : List Event) : List Span := events.filterMap Event.span?

/-- The metrics after the events. -/
def Metrics.after (m : Metrics) (events : List Event) : Metrics := events.foldl Event.count m

end PackageCycles

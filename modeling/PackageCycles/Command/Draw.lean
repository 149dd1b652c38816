import PackageCycles.Command.Completion
import PackageCycles.View.Drawing

/-!
# The drawing of the graph

The graph of a project, or the neighbourhood of one of its packages, is printed with its cycles
marked.
-/

namespace PackageCycles

namespace Draw

/-- The drawing of the graph of a report. -/
def render (o : GraphOptions) (r : Report) : Except CommandError Text := do
  let direction ← (Direction.parse o.direction).mapError .direction
  match DrawingFormat.ofName? o.format with
  | none => throw (.drawingFormat o.format)
  | some format =>
    let view : View := ⟨o.focus, direction, o.transitive, o.depth⟩
    return view.draw r.graph r.cycles format

/-- Analyses a project in a session and draws its graph. -/
def inSession (session : Session) (o : GraphOptions) (w : World) : Completion :=
  let s := session.settings
  let finish := fun (log : List Log.Entry) (drawn : Except CommandError Text) =>
    let err := session.lines w (session.startLog ++ log ++ session.stopLog)
    match drawn with
    | .ok out => Completion.mk w.tree [] out err none none
    | .error error => Completion.mk w.tree [] [] err (some error) none
  match Analyzer.new s with
  | .error cause => finish [] (.error (.settings cause))
  | .ok analyzer =>
    let root := s.sourceDirectory o.common.directory
    let analysis := analyzer.analyze (session.run w) w.tree none root
    match analysis.result with
    | .error cause => finish (logOf analysis.events) (.error (.analysis cause))
    | .ok report => finish (logOf analysis.events) (render o report)

/-- Draws the graph of a project as options ask. -/
def command (w : World) (env : Environment) (given : Given GraphOptions) : Completion :=
  let o := given.options
  match o.common.resolve given.names w.tree env with
  | .error cause => .failed w.tree (.resolve cause)
  | .ok s =>
    match Session.start s with
    | .error cause => .failed w.tree (.logFormat cause)
    | .ok session => inSession session o w

end Draw

end PackageCycles

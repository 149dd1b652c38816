import PackageCycles.Lint.Rule

/-!
# The rule against cycles

Packages must not depend on each other in a cycle. All cycles of a project make one violation, which
is an error or only a warning as the settings say.
-/

namespace PackageCycles

namespace Rule

/-- The name of the rule. -/
def cycleRuleName : Text := "no-cyclic-package-dependency"

/-- The severity of cycles. -/
def cycleSeverity (s : Settings) : Severity := if s.failOnError then .error else .warning

/-- The violation that a report shows, if it shows one. -/
def cycleViolations (s : Settings) (report : Report) : List Violation :=
  if report.hasCycles then [⟨cycleRuleName, cycleSeverity s, report.message⟩] else []

/-- The settings under which a project is checked: a project that has a name is reported on under
this name. -/
def settingsFor (s : Settings) (project : Project) : Settings :=
  if project.name = [] then s else { s with projectName := project.name }

/-- Checks a project for cycles. -/
def checkCycles (s : Settings) (w : Workspace) (project : Project) : Verdict :=
  match Analyzer.new (settingsFor s project) with
  | .error cause => ⟨.error (.settings cause), none, w.cache, []⟩
  | .ok analyzer =>
    let analysis := analyzer.analyze w.run w.tree w.cache (s.sourceDirectory project.directory)
    match analysis.result with
    | .error cause => ⟨.error (.analysis cause), none, analysis.cache, analysis.events⟩
    | .ok report =>
      ⟨.ok (cycleViolations s report), some report, analysis.cache, analysis.events⟩

/-- The rule that packages must not depend on each other in a cycle. -/
def noCycles (s : Settings) : Rule where
  name := cycleRuleName
  severity := cycleSeverity s
  description := "Packages must not depend on each other cyclically"
  cacheId := s.cacheId
  check := checkCycles s

/-- The rules that are enforced unless others are asked for. -/
def defaults (s : Settings) : List Rule := [noCycles s]

end Rule

end PackageCycles

import PackageCycles.Analysis.Basic

/-!
# Rules

A rule checks a project and gives violations, or fails. Rules are kept in a registry by name; they
come in the order of their names, and a rule registered under a name that is taken replaces the one
before.
-/

namespace PackageCycles

/-- How serious a violation is. -/
inductive Severity where
  | error
  | warning
  | info
  /-- A name without a meaning of its own. -/
  | unnamed (name : Text)
  deriving DecidableEq

namespace Severity

/-- The name of a severity. -/
def name : Severity → Text
  | .error => "error"
  | .warning => "warning"
  | .info => "info"
  | .unnamed name => name

/-- The severity of any name. -/
def ofName (name : Text) : Severity :=
  if name = "error" then .error
  else if name = "warning" then .warning
  else if name = "info" then .info
  else .unnamed name

end Severity

/-- What rules are enforced on. -/
structure Project where
  /-- Its name. -/
  name : Text
  /-- Its directory. -/
  directory : Text
  deriving DecidableEq

/-- Something that a rule objects to. -/
structure Violation where
  /-- The name of the rule. -/
  rule : Text
  /-- How serious it is. -/
  severity : Severity
  /-- What is said of it. -/
  message : Text
  deriving DecidableEq

/-- The violation as JSON. -/
def Violation.toJson (v : Violation) : Json :=
  .object [("rule", .text v.rule), ("severity", .text v.severity.name), ("message", .text v.message)]

/-- What rules look at. -/
structure Workspace where
  /-- The files. -/
  tree : FileTree
  /-- The import cache, if one is used. -/
  cache : Option Import.Cache
  /-- The run. -/
  run : Run

/-- Why a rule could not be checked. -/
inductive RuleError where
  /-- Its settings cannot be used. -/
  | settings (cause : SettingsError)
  /-- The analysis failed. -/
  | analysis (cause : AnalysisError)
  /-- Something else, in its own words. -/
  | other (message : Text)

/-- The wording of the error. -/
def RuleError.message : RuleError → Text
  | .settings cause => cause.message
  | .analysis cause => cause.message
  | .other message => message

/-- The outcome of checking one rule. -/
structure Verdict where
  /-- The violations, or why the rule could not be checked. -/
  result : Except RuleError (List Violation)
  /-- The report, if the rule makes one. -/
  report : Option Report
  /-- The import cache afterwards. -/
  cache : Option Import.Cache
  /-- What happened. -/
  events : List Event

/-- A rule. -/
structure Rule where
  /-- Its name. -/
  name : Text
  /-- How serious its violations are. -/
  severity : Severity
  /-- What it asks for. -/
  description : Text
  /-- A text that identifies the rule with its settings. -/
  cacheId : Text
  /-- Checks a project. -/
  check (w : Workspace) (project : Project) : Verdict

/-- Rules by name. -/
structure Registry where
  /-- The rules in increasing order of their names. -/
  entries : List (Text × Rule)

namespace Registry

/-- No rules. -/
def empty : Registry := ⟨[]⟩

/-- The registry with a rule, which replaces the one with its name. -/
def register (r : Registry) (rule : Rule) : Registry := ⟨Ordered.assign rule.name rule r.entries⟩

/-- The rule with a name. -/
def get? (r : Registry) (name : Text) : Option Rule := r.entries.lookup name

/-- The rules in increasing order of their names. -/
def rules (r : Registry) : List Rule := r.entries.map (·.2)

/-- The rules of a severity. -/
def ofSeverity (r : Registry) (severity : Severity) : List Rule :=
  r.rules.filter fun rule => rule.severity = severity

/-- The number of rules. -/
def size (r : Registry) : Nat := r.entries.length

end Registry

end PackageCycles

import PackageCycles.Lint.Rule

/-!
# Enforcement of rules

The rules of a registry are checked one after the other. A rule that fails ends the enforcement. If
none does, the violations that are errors make it fail and those that are warnings are logged.
-/

namespace PackageCycles

/-- The numbers of an enforcement. -/
structure Summary where
  /-- Rules that were checked. -/
  rules : Nat
  /-- All violations. -/
  total : Nat
  /-- Violations that are errors. -/
  errors : Nat
  /-- Violations that are warnings. -/
  warnings : Nat
  /-- Violations that are for information. -/
  infos : Nat
  deriving DecidableEq

namespace Summary

/-- The numbers while rules are being checked: only the rules are counted. -/
def ofRules (rules : Nat) : Summary := ⟨rules, 0, 0, 0, 0⟩

/-- The number of violations of a severity. -/
def countOf (severity : Severity) (violations : List Violation) : Nat :=
  violations.countP fun v => v.severity = severity

/-- The numbers when all rules have been checked. -/
def of (rules : Nat) (violations : List Violation) : Summary where
  rules := rules
  total := violations.length
  errors := countOf .error violations
  warnings := countOf .warning violations
  infos := countOf .info violations

/-- The summary as JSON. -/
def toJson (s : Summary) : Json :=
  .object
    [("rules", .int s.rules), ("totalViolations", .int s.total), ("errors", .int s.errors),
     ("warnings", .int s.warnings), ("infos", .int s.infos)]

end Summary

/-- Why an enforcement failed. -/
inductive EnforcementError where
  /-- A rule could not be checked. -/
  | rule (name : Text) (cause : RuleError)
  /-- There are violations that are errors. -/
  | violations (messages : List Text)

namespace EnforcementError

/-- The text without line ends at its end. -/
def trimLines (t : Text) : Text := (t.reverse.dropWhile (· = Text.byte '\n')).reverse

/-- The wording of the error. -/
def message : EnforcementError → Text
  | .rule name cause => ("rule " : Text) ++ name ++ " failed: " ++ cause.message
  | .violations messages => trimLines (Text.join "\n" messages)

end EnforcementError

/-- The outcome of an enforcement. -/
structure Enforcement where
  /-- The project. -/
  project : Text
  /-- The violations of the rules that could be checked. -/
  violations : List Violation
  /-- The numbers. -/
  summary : Summary
  /-- Why it failed, if it did. -/
  error : Option EnforcementError
  /-- The names of the rules that were tried, in this order. -/
  tried : List Text
  /-- The reports that rules made. -/
  reports : List Report
  /-- The import cache afterwards. -/
  cache : Option Import.Cache
  /-- What happened while rules were checked. -/
  events : List Event
  /-- What was logged about the violations. -/
  log : List Log.Entry

namespace Enforcement

/-- The state before any rule is checked. -/
def start (project : Project) (cache : Option Import.Cache) : Enforcement where
  project := project.name
  violations := []
  summary := .ofRules 0
  error := none
  tried := []
  reports := []
  cache := cache
  events := []
  log := []

/-- The state after the verdict of one more rule. -/
def add (e : Enforcement) (rule : Rule) (verdict : Verdict) : Enforcement :=
  let e :=
    { e with
      tried := e.tried ++ [rule.name]
      reports := e.reports ++ verdict.report.toList
      cache := verdict.cache
      events := e.events ++ verdict.events }
  match verdict.result with
  | .ok violations =>
    { e with
      violations := e.violations ++ violations
      summary := .ofRules (e.summary.rules + 1) }
  | .error cause => { e with error := some (.rule rule.name cause) }

/-- Checks rules until one fails. -/
def check (w : Workspace) (project : Project) : List Rule → Enforcement → Enforcement
  | [], e => e
  | rule :: rest, e =>
    let e := e.add rule (rule.check { w with cache := e.cache } project)
    if e.error.isSome then e else check w project rest e

/-- The entry about a violation that is a warning. -/
def warning? (project : Text) (v : Violation) : Option Log.Entry :=
  if v.severity = .warning then
    some ((Log.entry .warning v.message).withFields
      [("rule", .text v.rule), ("project", .text project)])
  else none

/-- The messages of the violations that are errors. -/
def errorMessages (violations : List Violation) : List Text :=
  (violations.filter fun v => v.severity = .error).map (·.message)

/-- What the violations amount to when all rules could be checked. -/
def conclude (e : Enforcement) : Enforcement :=
  let messages := errorMessages e.violations
  { e with
    summary := .of e.summary.rules e.violations
    error := if messages.isEmpty then none else some (.violations messages)
    log := e.violations.filterMap (warning? e.project) }

end Enforcement

/-- Enforces the rules of a registry on a project. -/
def Registry.enforce (r : Registry) (w : Workspace) (project : Project) : Enforcement :=
  let e := Enforcement.check w project r.rules (.start project w.cache)
  if e.error.isSome then e else e.conclude

end PackageCycles

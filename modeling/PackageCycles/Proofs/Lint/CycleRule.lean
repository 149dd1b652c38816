import PackageCycles.Lint.CycleRule
import PackageCycles.Lint.Enforcement

/-!
# What the rule against cycles comes to

If only one rule is enforced, the enforcement fails as the rule does, and otherwise fails exactly if
one of its violations is an error (`Registry.enforce_of_error`, `Registry.enforce_of_ok`). The rule
against cycles fails if its settings cannot be analysed with or the graph cannot be loaded; a source
directory that does not exist gives a report without violations (`Rule.checkCycles_of_missing`), and
a graph gives a violation exactly if it has cycles (`Rule.checkCycles_of_load`).
-/

namespace PackageCycles

/-! ## Enforcement of one rule -/

namespace Enforcement

/-- The enforcement has come to its end with the violations and the report of one rule. -/
structure Concludes (e : Enforcement) (violations : List Violation) (report : Report) :
    Prop where
  /-- It fails with the messages of the violations that are errors, if there are any. -/
  error_eq : e.error =
    if errorMessages violations = [] then none else some (.violations (errorMessages violations))
  /-- The violations that are errors are counted. -/
  errors_eq : e.summary.errors = Summary.countOf .error violations
  /-- The report comes first. -/
  head_reports : e.reports.head? = some report

/-- There are as many messages as violations that are errors. -/
theorem errorMessages_eq_nil_iff {violations : List Violation} :
    errorMessages violations = [] ↔ Summary.countOf .error violations = 0 := by
  rw [errorMessages, Summary.countOf, List.map_eq_nil_iff, List.countP_eq_length_filter,
    List.length_eq_zero_iff]

/-- An enforcement at its end counts no error exactly if it did not fail. -/
theorem Concludes.errors_eq_zero_iff {e : Enforcement} {violations : List Violation}
    {report : Report} (h : e.Concludes violations report) :
    e.summary.errors = 0 ↔ e.error = none := by
  rw [h.errors_eq, ← errorMessages_eq_nil_iff, h.error_eq]
  simp

end Enforcement

namespace Registry

section
variable {rule : Rule} {w : Workspace} {project : Project}

/-- The enforcement of one rule ends with its verdict or draws the conclusion from it. -/
theorem enforce_register (rule : Rule) (w : Workspace) (project : Project) :
    (empty.register rule).enforce w project =
      let e := (Enforcement.start project w.cache).add rule (rule.check w project)
      if e.error.isSome then e else e.conclude := by
  have hrules : (empty.register rule).rules = [rule] := rfl
  have hcache : (Enforcement.start project w.cache).cache = w.cache := rfl
  simp only [enforce, hrules, Enforcement.check, hcache, ite_self]

/-- The enforcement of one rule shows the report of the rule and leaves the cache that it leaves. -/
theorem head?_reports_enforce (rule : Rule) (w : Workspace) (project : Project) :
    ((empty.register rule).enforce w project).reports.head? = (rule.check w project).report ∧
      ((empty.register rule).enforce w project).cache = (rule.check w project).cache := by
  have hadd : ((Enforcement.start project w.cache).add rule (rule.check w project)).reports =
      (rule.check w project).report.toList ∧
      ((Enforcement.start project w.cache).add rule (rule.check w project)).cache =
        (rule.check w project).cache := by
    unfold Enforcement.add
    split <;> exact ⟨rfl, rfl⟩
  rw [enforce_register]
  dsimp only
  split
  next => rw [hadd.1, hadd.2, Option.head?_toList]; exact ⟨rfl, rfl⟩
  next =>
    rw [Enforcement.conclude]
    dsimp only
    rw [hadd.1, hadd.2, Option.head?_toList]
    exact ⟨rfl, rfl⟩

/-- The enforcement of a rule that cannot be checked fails with the name of the rule. -/
theorem enforce_of_error {cause : RuleError} (h : (rule.check w project).result = .error cause) :
    ((empty.register rule).enforce w project).error = some (.rule rule.name cause) := by
  have hadd : ((Enforcement.start project w.cache).add rule (rule.check w project)).error =
      some (.rule rule.name cause) := by
    rw [Enforcement.add, h]
  rw [enforce_register]
  simp [hadd]

/-- The enforcement of a rule that can be checked draws the conclusion from what the rule gives. -/
theorem enforce_of_ok {violations : List Violation} {report : Report}
    (h : (rule.check w project).result = .ok violations)
    (hreport : (rule.check w project).report = some report) :
    ((empty.register rule).enforce w project).Concludes violations report := by
  have hadd : (Enforcement.start project w.cache).add rule (rule.check w project) =
      { Enforcement.start project w.cache with
        tried := [rule.name]
        reports := [report]
        cache := (rule.check w project).cache
        events := (rule.check w project).events
        violations := violations
        summary := .ofRules 1 } := by
    rw [Enforcement.add, h, hreport]
    rfl
  rw [enforce_register, hadd]
  refine ⟨?_, rfl, rfl⟩
  simp [Enforcement.conclude, Enforcement.start]

end

end Registry

/-! ## The rule against cycles -/

namespace Rule

section
variable {s : Settings} {w : Workspace} {project : Project} {a : Analyzer}

/-- A project is checked under the settings themselves if it has the name that they give. -/
theorem settingsFor_self (s : Settings) (directory : Text) :
    settingsFor s ⟨s.projectName, directory⟩ = s := by
  rw [settingsFor]
  split
  next => rfl
  next => rfl

/-- The rule cannot be checked under settings that cannot be analysed with. -/
theorem checkCycles_of_error {cause : SettingsError}
    (h : Analyzer.new (settingsFor s project) = .error cause) :
    (checkCycles s w project).result = .error (.settings cause) := by
  rw [checkCycles, h]

/-- The rule shows the report of an analysis, if there is one, and leaves the cache that it leaves. -/
theorem report_checkCycles (h : Analyzer.new (settingsFor s project) = .ok a) (w : Workspace) :
    (checkCycles s w project).report =
        (a.analyze w.run w.tree w.cache (s.sourceDirectory project.directory)).result.toOption ∧
      (checkCycles s w project).cache =
        (a.analyze w.run w.tree w.cache (s.sourceDirectory project.directory)).cache := by
  rw [checkCycles, h]
  dsimp only
  split
  next hresult => rw [hresult]; exact ⟨rfl, rfl⟩
  next hresult => rw [hresult]; exact ⟨rfl, rfl⟩

/-- The rule cannot be checked if the graph cannot be loaded. -/
theorem checkCycles_of_unloadable (h : Analyzer.new (settingsFor s project) = .ok a)
    {cause : SourceError} (hmissing : ¬ cause.isMissing)
    (hload : (a.source.load w.tree w.cache w.run.timing
      (s.sourceDirectory project.directory)).result = .error cause) :
    (checkCycles s w project).result =
      .error (.analysis ⟨s.sourceDirectory project.directory, cause⟩) := by
  rw [checkCycles, h]
  simp only [Analyzer.analyze, hload, if_neg hmissing]

/-- A source directory that does not exist violates nothing. -/
theorem checkCycles_of_missing (h : Analyzer.new (settingsFor s project) = .ok a)
    {cause : SourceError} (hmissing : cause.isMissing)
    (hload : (a.source.load w.tree w.cache w.run.timing
      (s.sourceDirectory project.directory)).result = .error cause) :
    (checkCycles s w project).result = .ok [] ∧
      (checkCycles s w project).report =
        some (a.emptyReport w.run (s.sourceDirectory project.directory)) := by
  rw [checkCycles, h]
  simp only [Analyzer.analyze, hload, if_pos hmissing]
  exact ⟨rfl, trivial⟩

/-- A graph that can be loaded violates the rule as the report on it shows. -/
theorem checkCycles_of_load (h : Analyzer.new (settingsFor s project) = .ok a)
    {loaded : LoadedGraph}
    (hload : (a.source.load w.tree w.cache w.run.timing
      (s.sourceDirectory project.directory)).result = .ok loaded) :
    (checkCycles s w project).result = .ok (cycleViolations s
        (a.report w.run (s.sourceDirectory project.directory) loaded)) ∧
      (checkCycles s w project).report =
        some (a.report w.run (s.sourceDirectory project.directory) loaded) := by
  rw [checkCycles, h]
  simp only [Analyzer.analyze, hload, and_self]

/-- Cycles are an error exactly if the settings say so. -/
theorem errorMessages_cycleViolations {report : Report} :
    Enforcement.errorMessages (cycleViolations s report) = [] ↔
      report.cycles = [] ∨ s.failOnError = false := by
  unfold cycleViolations cycleSeverity Report.hasCycles
  cases hcycles : report.cycles with
  | nil => simp [Enforcement.errorMessages]
  | cons c rest => cases s.failOnError <;> simp [Enforcement.errorMessages]

end

end Rule

end PackageCycles

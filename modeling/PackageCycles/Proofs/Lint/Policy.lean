import Mathlib.Data.List.TakeWhile
import PackageCycles.Lint.Enforcement
import PackageCycles.Proofs.Lint.Registration

/-!
# The policy of an enforcement

Each rule of a registry is checked with the import cache that the one before it has left
(`Enforcement.verdicts`). As long as no rule fails, the enforcement gathers what the verdicts say
(`Enforcement.Gathers`), which one more verdict keeps (`Gathers.add`). So it ends at the first rule
that fails, or it comes to its end with all verdicts (`Enforcement.check_cases`): the main statement
`Registry.enforce_policy` says what it shows in either case. The numbers of the summary are those of
the violations unless it ends at a rule that fails after another one has found something
(`Registry.summary_enforce`), for then only the rules have been counted.
-/

namespace PackageCycles

/-- The violations that a rule found: none if it could not be checked. -/
def Verdict.violations (v : Verdict) : List Violation := v.result.toOption.getD []

/-- The numbers are those of the violations. -/
structure Summary.Counts (s : Summary) (violations : List Violation) : Prop where
  /-- All violations are counted. -/
  total_eq : s.total = violations.length
  /-- Those that are errors are counted. -/
  errors_eq : s.errors = (violations.filter fun v => v.severity = .error).length
  /-- Those that are warnings are counted. -/
  warnings_eq : s.warnings = (violations.filter fun v => v.severity = .warning).length
  /-- Those for information are counted. -/
  infos_eq : s.infos = (violations.filter fun v => v.severity = .info).length

namespace Summary

theorem counts_of (rules : Nat) (violations : List Violation) :
    (of rules violations).Counts violations :=
  ⟨rfl, List.countP_eq_length_filter, List.countP_eq_length_filter, List.countP_eq_length_filter⟩

/-- While rules are being checked the numbers are right only if nothing has been found. -/
theorem counts_ofRules_iff {rules : Nat} {violations : List Violation} :
    (ofRules rules).Counts violations ↔ violations = [] := by
  constructor
  · intro h
    exact List.length_eq_zero_iff.1 h.total_eq.symm
  · rintro rfl
    exact ⟨rfl, rfl, rfl, rfl⟩

end Summary

namespace Enforcement

/-! ## Gathering verdicts -/

/-- Rules with their verdicts, each checked with the import cache that the one before it has left.
The verdicts behind one that failed are those that would come next. -/
def verdicts (w : Workspace) (project : Project) : List Rule → List (Rule × Verdict)
  | [] => []
  | rule :: rest =>
    let verdict := rule.check w project
    (rule, verdict) :: verdicts { w with cache := verdict.cache } project rest

/-- The enforcement shows what some verdicts say, none of which failed. -/
structure Gathers (e : Enforcement) (project : Project) (done : List (Rule × Verdict)) :
    Prop where
  /-- It is about the project. -/
  project_eq : e.project = project.name
  /-- The violations come in the order of the rules. -/
  violations_eq : e.violations = done.flatMap (·.2.violations)
  /-- The rules are counted, and nothing else. -/
  summary_eq : e.summary = .ofRules done.length
  /-- It has not failed. -/
  error_eq : e.error = none
  /-- The rules have been tried in their order. -/
  tried_eq : e.tried = done.map (·.1.name)
  /-- The reports come in the order of the rules. -/
  reports_eq : e.reports = done.flatMap (·.2.report.toList)
  /-- So do the events. -/
  events_eq : e.events = done.flatMap (·.2.events)
  /-- Nothing has been logged about violations. -/
  log_eq : e.log = []

/-- The enforcement has ended at a rule that could not be checked. -/
structure StopsAt (e : Enforcement) (done : List (Rule × Verdict)) (rule : Rule)
    (verdict : Verdict) (cause : RuleError) : Prop where
  /-- The error has the name of the rule and its cause. -/
  error_eq : e.error = some (.rule rule.name cause)
  /-- No later rule has been tried. -/
  tried_eq : e.tried = done.map (·.1.name) ++ [rule.name]
  /-- No later rule has reported anything. -/
  reports_eq : e.reports = done.flatMap (·.2.report.toList) ++ verdict.report.toList
  /-- No later rule has led to an event. -/
  events_eq : e.events = done.flatMap (·.2.events) ++ verdict.events
  /-- No later rule has changed the import cache. -/
  cache_eq : e.cache = verdict.cache
  /-- The violations are those found before. -/
  violations_eq : e.violations = done.flatMap (·.2.violations)
  /-- Only the rules before are counted. -/
  summary_eq : e.summary = .ofRules done.length
  /-- Nothing has been logged about violations. -/
  log_eq : e.log = []

/-- The enforcement has come to its end with the verdicts on all rules. -/
structure FinishesWith (e : Enforcement) (project : Project) (all : List (Rule × Verdict)) :
    Prop where
  /-- All rules have been tried in their order. -/
  tried_eq : e.tried = all.map (·.1.name)
  /-- The violations are those of all rules in their order. -/
  violations_eq : e.violations = all.flatMap (·.2.violations)
  /-- It fails because of violations exactly if one of them is an error. -/
  fails_iff : (∃ messages, e.error = some (.violations messages)) ↔
    ∃ v ∈ e.violations, v.severity = .error
  /-- It fails for no other reason, and shows the messages of the violations that are errors. -/
  error_eq : ∀ error, e.error = some error →
    error = .violations ((e.violations.filter fun v => v.severity = .error).map (·.message))
  /-- Each violation that is a warning is logged once, in their order. -/
  log_eq : e.log = (e.violations.filter fun v => v.severity = .warning).map fun v =>
    ⟨.warning, v.message, [("rule", .text v.rule), ("project", .text project.name)]⟩
  /-- The summary counts the rules. -/
  rules_eq : e.summary.rules = all.length
  /-- It counts the violations. -/
  counts : e.summary.Counts e.violations

section
variable {e : Enforcement} {w : Workspace} {project : Project} {rule : Rule} {verdict : Verdict}
  {done : List (Rule × Verdict)}

theorem gathers_start (project : Project) (cache : Option Import.Cache) :
    (start project cache).Gathers project [] :=
  ⟨rfl, rfl, rfl, rfl, rfl, rfl, rfl, rfl⟩

/-- The state is left to the next rule with the cache of the verdict. -/
theorem cache_add (e : Enforcement) (rule : Rule) (verdict : Verdict) :
    (e.add rule verdict).cache = verdict.cache := by
  unfold add
  split <;> rfl

/-- A verdict that did not fail is gathered too. -/
theorem Gathers.add (h : e.Gathers project done) {violations : List Violation}
    (hresult : verdict.result = .ok violations) :
    (e.add rule verdict).Gathers project (done ++ [(rule, verdict)]) := by
  have hviolations : verdict.violations = violations := by
    rw [Verdict.violations, hresult]
    rfl
  have hrules : e.summary.rules = done.length := congrArg Summary.rules h.summary_eq
  rw [Enforcement.add, hresult]
  exact {
    project_eq := h.project_eq
    violations_eq := by simp [h.violations_eq, hviolations]
    summary_eq := by simp [hrules]
    error_eq := h.error_eq
    tried_eq := by simp [h.tried_eq]
    reports_eq := by simp [h.reports_eq]
    events_eq := by simp [h.events_eq]
    log_eq := h.log_eq }

/-- A verdict that failed ends the enforcement. -/
theorem Gathers.stopsAt (h : e.Gathers project done) {cause : RuleError}
    (hresult : verdict.result = .error cause) :
    (e.add rule verdict).StopsAt done rule verdict cause := by
  rw [Enforcement.add, hresult]
  exact {
    error_eq := rfl
    tried_eq := by rw [h.tried_eq]
    reports_eq := by rw [h.reports_eq]
    events_eq := by rw [h.events_eq]
    cache_eq := rfl
    violations_eq := h.violations_eq
    summary_eq := h.summary_eq
    log_eq := h.log_eq }

theorem filterMap_warning? (project : Text) (violations : List Violation) :
    violations.filterMap (warning? project) =
      (violations.filter fun v => v.severity = .warning).map fun v =>
        ⟨.warning, v.message, [("rule", .text v.rule), ("project", .text project)]⟩ := by
  induction violations with
  | nil => rfl
  | cons v rest ih =>
    by_cases hv : v.severity = .warning
    · simp only [List.filterMap_cons, warning?, List.filter_cons, hv, decide_true,
        if_true, List.map_cons, ih]
      rfl
    · simp only [List.filterMap_cons, warning?, List.filter_cons, hv, decide_false,
        Bool.false_eq_true, if_false, ih]

/-- What has been gathered from all rules is concluded from. -/
theorem Gathers.finishesWith (h : e.Gathers project done) :
    e.conclude.FinishesWith project done := by
  have hmessages : (errorMessages e.violations).isEmpty = false ↔
      ∃ v ∈ e.violations, v.severity = .error := by
    rw [List.isEmpty_eq_false_iff, errorMessages, Ne, List.map_eq_nil_iff, List.filter_eq_nil_iff]
    simp
  rw [conclude]
  refine ⟨h.tried_eq, h.violations_eq, ?_, fun error herror => ?_, ?_, ?_, Summary.counts_of _ _⟩
  · rw [← hmessages]
    cases (errorMessages e.violations).isEmpty with
    | true => simp
    | false => simp
  · cases hempty : (errorMessages e.violations).isEmpty with
    | true => simp [hempty] at herror
    | false =>
      simp only [hempty, Bool.false_eq_true, if_false, Option.some.injEq] at herror
      exact herror.symm
  · exact h.project_eq ▸ filterMap_warning? e.project e.violations
  · exact congrArg Summary.rules h.summary_eq

/-- Checking further rules ends at the first one that fails or gathers the verdicts on all of
them. -/
theorem check_cases (h : e.Gathers project done) (rules : List Rule) :
    (∃ before rule verdict later cause,
      verdicts { w with cache := e.cache } project rules = before ++ (rule, verdict) :: later ∧
        (∀ v ∈ before, v.2.result.isOk) ∧ verdict.result = .error cause ∧
        (check w project rules e).StopsAt (done ++ before) rule verdict cause) ∨
    (∀ v ∈ verdicts { w with cache := e.cache } project rules, v.2.result.isOk) ∧
      (check w project rules e).Gathers project
        (done ++ verdicts { w with cache := e.cache } project rules) := by
  induction rules generalizing e done with
  | nil => exact .inr ⟨by simp [verdicts], by rwa [verdicts, List.append_nil]⟩
  | cons rule rest ih =>
    simp only [verdicts, check]
    generalize rule.check { w with cache := e.cache } project = verdict
    cases hresult : verdict.result with
    | error cause =>
      have hstops : (e.add rule verdict).StopsAt done rule verdict cause := h.stopsAt hresult
      refine .inl ⟨[], rule, verdict, _, cause, rfl, by simp, hresult, ?_⟩
      rwa [if_pos (by rw [hstops.error_eq]; rfl), List.append_nil]
    | ok violations =>
      have hgathers : (e.add rule verdict).Gathers project (done ++ [(rule, verdict)]) :=
        h.add hresult
      have hok : verdict.result.isOk := by
        rw [hresult]
        rfl
      rw [if_neg (by rw [hgathers.error_eq]; exact Bool.false_ne_true)]
      have ih := ih hgathers
      rw [cache_add] at ih
      rcases ih with ⟨before, failed, failure, later, cause, hverdicts, hbefore, herror, hstops⟩ |
        ⟨hall, hgathers⟩
      · refine .inl ⟨(rule, verdict) :: before, failed, failure, later, cause, ?_, ?_, herror, ?_⟩
        · rw [hverdicts, List.cons_append]
        · exact List.forall_mem_cons.2 ⟨hok, hbefore⟩
        · rwa [List.append_assoc, List.singleton_append] at hstops
      · refine .inr ⟨List.forall_mem_cons.2 ⟨hok, hall⟩, ?_⟩
        rwa [List.append_assoc, List.singleton_append] at hgathers

end

end Enforcement

namespace Registry

/-- The enforcement of the rules of a registry ends at the first rule that fails, with no later rule
tried and nothing logged, or comes to its end with the verdicts on all rules. -/
theorem enforce_cases (r : Registry) (w : Workspace) (project : Project) :
    (∃ done rule verdict later cause,
      Enforcement.verdicts w project r.rules = done ++ (rule, verdict) :: later ∧
        (∀ v ∈ done, v.2.result.isOk) ∧ verdict.result = .error cause ∧
        (r.enforce w project).StopsAt done rule verdict cause) ∨
    (∀ v ∈ Enforcement.verdicts w project r.rules, v.2.result.isOk) ∧
      (r.enforce w project).FinishesWith project (Enforcement.verdicts w project r.rules) := by
  have hstart := Enforcement.gathers_start project w.cache
  rcases Enforcement.check_cases (w := w) hstart r.rules with
    ⟨done, rule, verdict, later, cause, hverdicts, hdone, herror, hstops⟩ | ⟨hall, hgathers⟩
  · refine .inl ⟨done, rule, verdict, later, cause, hverdicts, hdone, herror, ?_⟩
    rw [List.nil_append] at hstops
    rw [enforce, if_pos (by rw [hstops.error_eq]; rfl)]
    exact hstops
  · refine .inr ⟨hall, ?_⟩
    rw [List.nil_append] at hgathers
    rw [enforce, if_neg (by rw [hgathers.error_eq]; exact Bool.false_ne_true)]
    exact hgathers.finishesWith

/-- After any history of registrations, an enforcement tries the latest rule of each name in strictly
increasing order of their names. It ends at the first rule that fails, with the error of that rule,
no later rule tried and nothing logged about violations. If no rule fails, it shows the violations of
all rules in their order, fails exactly if one of them is an error, with the messages of those that
are, and logs each one that is a warning once and in their order. -/
theorem enforce_policy (history : List Rule) (w : Workspace) (project : Project) :
    let registry := history.foldl register empty
    let verdicts := Enforcement.verdicts w project registry.rules
    let e := registry.enforce w project
    Ordered.IsOrdered (registry.rules.map (·.name)) ∧
    (∀ rule, rule ∈ registry.rules ↔ rule.IsLatest history) ∧
    ((∃ done rule verdict later cause, verdicts = done ++ (rule, verdict) :: later ∧
        (∀ v ∈ done, v.2.result.isOk) ∧ verdict.result = .error cause ∧
        e.StopsAt done rule verdict cause) ∨
      (∀ v ∈ verdicts, v.2.result.isOk) ∧ e.FinishesWith project verdicts) :=
  ⟨(isSound_foldl_register history).isOrdered_names, fun _ => mem_rules_foldl_register,
    enforce_cases _ w project⟩

/-! ## The summary -/

/-- After any history of registrations, the summary of an enforcement counts the rules that were
checked without fail. It counts the violations exactly if no rule fails or nothing was found before
the first one that does. -/
theorem summary_enforce (history : List Rule) (w : Workspace) (project : Project) :
    let registry := history.foldl register empty
    let verdicts := Enforcement.verdicts w project registry.rules
    let e := registry.enforce w project
    e.summary.rules = (verdicts.takeWhile fun v => v.2.result.isOk).length ∧
    (e.summary.Counts e.violations ↔
      (∀ v ∈ verdicts, v.2.result.isOk) ∨ e.violations = []) := by
  intro registry verdicts e
  rcases enforce_cases registry w project with
    ⟨done, rule, verdict, later, cause, hverdicts, hdone, herror, hstops⟩ | ⟨hall, hfinishes⟩
  · have hfailed : verdict.result.isOk = false := by
      rw [herror]
      rfl
    have hverdicts : verdicts = done ++ (rule, verdict) :: later := hverdicts
    have hsummary : e.summary = .ofRules done.length := hstops.summary_eq
    have hnot : ¬ ∀ v ∈ verdicts, v.2.result.isOk := fun hall => by
      have hok := hall (rule, verdict) (by simp [hverdicts])
      exact Bool.false_ne_true (hfailed.symm.trans hok)
    constructor
    · rw [hsummary, hverdicts, List.takeWhile_append_of_pos hdone, List.takeWhile_cons_of_neg
        (by simp [hfailed]), List.append_nil]
      rfl
    · rw [hsummary, Summary.counts_ofRules_iff, or_iff_right hnot]
  · constructor
    · rw [List.takeWhile_eq_self_iff.2 hall]
      exact hfinishes.rules_eq
    · exact ⟨fun _ => .inl hall, fun _ => hfinishes.counts⟩

/-- A rule with the same result for every project. -/
def constantRule (name : Text) (result : Except RuleError (List Violation)) : Rule :=
  ⟨name, .error, "", name, fun w _ => ⟨result, none, w.cache, []⟩⟩

/-- A rule that finds an error, and one behind it that fails. -/
def findThenFail : List Rule :=
  [constantRule "a" (.ok [⟨"a", .error, "kept"⟩]), constantRule "b" (.error (.other "bad"))]

/-- A rule that fails after another one has found something leaves the violations uncounted. -/
theorem summary_enforce_misses_findThenFail :
    let e := (findThenFail.foldl register empty).enforce
      ⟨⟨.directory [] .full, []⟩, none, ⟨"", .none, none⟩⟩ ⟨"demo", ""⟩
    e.violations = [⟨"a", .error, "kept"⟩] ∧ e.summary.total = 0 ∧ e.summary.errors = 0 ∧
      ¬ e.summary.Counts e.violations := by
  refine ⟨rfl, rfl, rfl, fun h => ?_⟩
  exact absurd h.total_eq (by decide)

end Registry

end PackageCycles

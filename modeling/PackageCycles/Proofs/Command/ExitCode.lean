import PackageCycles.Command.Program
import PackageCycles.Proofs.Lint.CycleRule
import PackageCycles.Proofs.Settings.Validation

/-!
# The exit code of a check

A check that gets as far as the rule against cycles has a plan: a directory, a format, settings that
keep the rules and an exclusion of packages (`Check.Plan.Accepted`). Without a plan it fails before
anything is printed (`Check.Call.ends_of_not_accepted`). With one, the source directory decides: it
may be missing, its graph may not be loaded, or the graph may have cycles
(`Check.Plan.Accepted.ends`). Neither the format nor the log level nor the file for the metrics has
a part in this, so they do not change the exit code (`Check.exitCode_completion`).
-/

namespace PackageCycles

/-! ## Sources -/

namespace Source

section
variable {suffix root : Text} {excluded : Package → Bool} {t : FileTree}
  {cache : Option Import.Cache} {timing : Timing}

/-- The graph that is loaded does not depend on how long it takes. -/
theorem result_load_ofFiles (timing timing' : Timing) :
    ((ofFiles suffix excluded).load t cache timing root).result =
      ((ofFiles suffix excluded).load t cache timing' root).result := by
  simp only [ofFiles]
  cases scan t suffix root <;> rfl

/-- A source directory is missing exactly if its path leads to nothing. -/
theorem load_ofFiles_missing_iff :
    (∃ cause, ((ofFiles suffix excluded).load t cache timing root).result = .error cause ∧
      cause.isMissing) ↔ ∃ cause, t.stat root = .error cause ∧ cause.fault = .notFound := by
  simp only [ofFiles, scan]
  cases hstat : t.stat root with
  | error cause =>
    by_cases hfault : cause.fault = .notFound <;> simp [hfault, SourceError.isMissing]
  | ok node =>
    -- The path leads to something, and whatever is wrong with it has another name.
    simp only [reduceCtorEq, false_and, exists_false, iff_false, not_exists, not_and]
    intro cause
    by_cases hnode : node.isDirectory
    · rw [if_neg (by simpa using hnode)]
      cases t.statLink root with
      | error => rintro ⟨⟩ ⟨⟩
      | ok top =>
        cases top with
        | file | link | special => rintro ⟨⟩
        | directory =>
          dsimp only
          cases t.readDirectory root with
          | error => rintro ⟨⟩ ⟨⟩
          | ok => rintro ⟨⟩
    · rw [if_pos (by simpa using hnode)]
      rintro ⟨⟩ ⟨⟩

end

end Source

namespace Check

/-! ## Plans -/

/-- A call of the check. -/
structure Call where
  /-- What flags have set before. -/
  program : Program
  /-- The world around it. -/
  world : World
  /-- The variables. -/
  environment : Environment
  /-- The arguments. -/
  arguments : List Text

/-- How the check ends. -/
def Call.completion (call : Call) : Completion :=
  (call.program.execute call.world call.environment ("check" :: call.arguments)).2

/-- What a check goes by. -/
structure Plan where
  /-- The directory of the project. -/
  directory : Text
  /-- The format of the report. -/
  format : ReportFormat
  /-- The settings. -/
  settings : Settings
  /-- The packages left out. -/
  exclusion : Exclusion

namespace Plan

/-- The source directory. -/
def root (plan : Plan) : Text := plan.settings.sourceDirectory plan.directory

/-- The graph of the source directory, or why it cannot be loaded. -/
def load (plan : Plan) (t : FileTree) : Except SourceError LoadedGraph :=
  ((Source.ofFiles plan.settings.fileSuffix plan.exclusion.excludes).load t none .none
    plan.root).result

/-- The source directory does not exist. -/
def RootMissing (plan : Plan) (t : FileTree) : Prop :=
  ∃ cause, t.stat plan.root = .error cause ∧ cause.fault = .notFound

/-- The flags and the settings of a call are accepted, and it is this that they ask for. -/
structure Accepted (plan : Plan) (call : Call) : Prop where
  /-- The flags can be read and name a format, and the settings can be found out. -/
  resolves : ∃ given s,
    CheckOptions.flags.parse call.program.check call.arguments = (given, none) ∧
    ReportFormat.ofName? given.options.format = some plan.format ∧
    given.options.common.directory = plan.directory ∧
    given.options.common.resolve given.names call.world.tree call.environment = .ok s ∧
    plan.settings = withMetricsFile given.options.metricsFile s
  /-- The settings keep the rules. -/
  valid : plan.settings.validate = .ok ()
  /-- The patterns are well-formed. -/
  compiles : Exclusion.compile plan.settings.excludePatterns = .ok plan.exclusion

/-- The exit code that the source directory decides on. -/
def exitCode (plan : Plan) (t : FileTree) : Nat :=
  match plan.load t with
  | .ok loaded =>
    if plan.settings.detector.detect loaded.graph = [] ∨ plan.settings.failOnError = false then 0
    else 1
  | .error cause => if cause.isMissing then 0 else 2

section
variable {plan : Plan} {t : FileTree}

/-- The source directory is missing exactly if that is why its graph cannot be loaded. -/
theorem rootMissing_iff :
    plan.RootMissing t ↔ ∃ cause, plan.load t = .error cause ∧ cause.isMissing :=
  Source.load_ofFiles_missing_iff.symm

/-- The exit code tells of cycles that make the check fail. -/
theorem exitCode_eq_one_iff : plan.exitCode t = 1 ↔ plan.settings.failOnError = true ∧
    ∃ loaded, plan.load t = .ok loaded ∧ plan.settings.detector.detect loaded.graph ≠ [] := by
  unfold exitCode
  cases plan.load t with
  | error cause => cases hmissing : cause.isMissing <;> simp [hmissing]
  | ok loaded => simp [and_comm]

/-- The exit code is zero if there is nothing to check or the check passes. -/
theorem exitCode_eq_zero_iff : plan.exitCode t = 0 ↔ plan.RootMissing t ∨
    ∃ loaded, plan.load t = .ok loaded ∧
      (plan.settings.detector.detect loaded.graph = [] ∨ plan.settings.failOnError = false) := by
  rw [rootMissing_iff, exitCode]
  cases plan.load t with
  | error cause => cases hmissing : cause.isMissing <;> simp [hmissing]
  | ok loaded => simp [Classical.or_iff_not_imp_left]

/-- There is no other exit code than 0, 1 and 2. -/
theorem exitCode_le_two : plan.exitCode t ≤ 2 := by
  unfold exitCode
  split <;> split <;> omega

/-- The exit code depends on what is loaded and on the settings that the detection needs. -/
theorem exitCode_congr {plan' : Plan} {t' : FileTree} (hload : plan'.load t' = plan.load t)
    (hdetector : plan'.settings.detector = plan.settings.detector)
    (hfail : plan'.settings.failOnError = plan.settings.failOnError) :
    plan'.exitCode t' = plan.exitCode t := by
  rw [exitCode, exitCode, hload, hdetector, hfail]

end

end Plan

/-! ## Ends -/

/-- A check ends with the exit code. It prints nothing if it failed; else it prints a report on an
enforcement that passed exactly if the code is zero. -/
structure Ends (format : ReportFormat) (s : Settings) (code : Nat) (c : Completion) : Prop where
  /-- The exit code. -/
  exitCode_eq : c.exitCode = code
  /-- A check that failed prints nothing. -/
  out_eq_nil : code = 2 → c.out = []
  /-- Any other check prints a report. -/
  out_eq_render : code ≠ 2 → ∃ report e, c.out = render format s report e ∧
    (passed e = true ↔ code = 0)

section
variable {format form : ReportFormat} {s s' : Settings} {directory : Text} {session : Session}
  {w : World}

/-- A failure that is no violation ends the check with 2. -/
theorem ends_failed {t : FileTree} {error : CommandError} (h : error.exitCode = 2) :
    Ends format s 2 (.failed t error) :=
  ⟨h, fun _ => rfl, fun hne => absurd rfl hne⟩

/-- A rule that cannot be checked ends the check with 2. -/
theorem ends_of_error {name : Text} {cause : RuleError}
    (h : (enforcement session.settings directory w.tree (session.run w)).error =
      some (.rule name cause)) :
    Ends form s 2 (inSession session directory format w) where
  exitCode_eq := by simp [Completion.exitCode, inSession, h, CommandError.exitCode]
  out_eq_nil _ := by simp [inSession, output, h]
  out_eq_render hne := absurd rfl hne

/-- An enforcement that comes to its end fails with 1 if there are violations that are errors. -/
theorem ends_of_concludes {violations : List Violation} {report : Report}
    (h : (enforcement session.settings directory w.tree (session.run w)).Concludes violations
      report) :
    Ends format session.settings (if Enforcement.errorMessages violations = [] then 0 else 1)
      (inSession session directory format w) := by
  have hexit : (inSession session directory format w).exitCode =
      (((enforcement session.settings directory w.tree (session.run w)).error.map
        CommandError.enforcement).map CommandError.exitCode).getD 0 := rfl
  have hout : (inSession session directory format w).out = output format session.settings
      (enforcement session.settings directory w.tree (session.run w)) := rfl
  have hpassed := h.errors_eq_zero_iff
  -- What the enforcement is has no further part in this, only how it concluded.
  generalize enforcement session.settings directory w.tree (session.run w) = e at *
  have herror := h.error_eq
  by_cases hnil : Enforcement.errorMessages violations = []
  · rw [if_pos hnil] at herror ⊢
    refine ⟨by rw [hexit, herror]; rfl, nofun, fun _ => ⟨report, e, ?_, ?_⟩⟩
    · rw [hout, output, herror, h.head_reports]
    · simp [passed, hpassed, herror]
  · rw [if_neg hnil] at herror ⊢
    refine ⟨by rw [hexit, herror]; rfl, nofun, fun _ => ⟨report, e, ?_, ?_⟩⟩
    · rw [hout, output, herror, h.head_reports]
    · simp [passed, hpassed, herror]

/-- Settings that cannot be analysed with end the check with 2, whether or not a session can be
started. -/
theorem ends_run_of_error {cause : SettingsError} (h : Analyzer.new s = .error cause) :
    Ends form s' 2 (run s directory format w) := by
  unfold run
  split
  next => exact ends_failed rfl
  next session hstart =>
    obtain ⟨rfl, -⟩ := Session.start_eq_ok_iff.1 hstart
    rw [← Rule.settingsFor_self session.settings directory] at h
    exact ends_of_error (Registry.enforce_of_error (Rule.checkCycles_of_error h))

end

namespace Call

variable {call : Call}

/-- The name of the command is no call for help. -/
theorem completion_eq_withFlags (call : Call) : call.completion =
    (Program.withFlags CheckOptions.flags call.program.check call.world call.arguments
      (command call.world call.environment)).2 := by
  have hhelp : Program.asksForHelp "check" = false := by decide +kernel
  rw [completion, Program.execute, hhelp]
  rfl

/-- A call with a plan gets as far as the check under its settings. -/
theorem completion_eq_run {plan : Plan} (h : plan.Accepted call) :
    call.completion = run plan.settings plan.directory plan.format call.world := by
  obtain ⟨given, s, hparse, hformat, hdirectory, hresolve, hsettings⟩ := h.resolves
  rw [completion_eq_withFlags, Program.withFlags, hparse]
  simp only [command, hformat, hresolve, hdirectory, hsettings]

/-- A call without a plan fails. -/
theorem ends_of_not_accepted (h : ∀ plan : Plan, ¬ plan.Accepted call) (format : ReportFormat)
    (s : Settings) : Ends format s 2 call.completion := by
  rw [completion_eq_withFlags, Program.withFlags]
  split
  next given hparse =>
    unfold command
    dsimp only
    split
    next => exact ends_failed rfl
    next form hformat =>
      split
      next => exact ends_failed rfl
      next resolved hresolve =>
        cases hnew : Analyzer.new (withMetricsFile given.options.metricsFile resolved) with
        | error cause => exact ends_run_of_error hnew
        | ok a =>
          -- With an analyzer, the call has a plan after all.
          obtain ⟨hvalid, exclusion, hcompile, -⟩ := Analyzer.new_eq_ok_iff.1 hnew
          exact absurd ⟨⟨given, resolved, hparse, hformat, rfl, hresolve, rfl⟩, hvalid, hcompile⟩
            (h ⟨given.options.common.directory, form, _, exclusion⟩)
  next => exact ⟨rfl, fun _ => rfl, fun hne => absurd rfl hne⟩

end Call

namespace Plan.Accepted

section
variable {plan : Plan} {call : Call}

/-- A call with a plan works in a session. -/
theorem exists_session (h : plan.Accepted call) : ∃ form : Log.Format,
    call.completion = inSession ⟨plan.settings, form⟩ plan.directory plan.format call.world := by
  obtain ⟨-, -, -, -, ⟨form, hform⟩, -⟩ := Settings.validate_eq_ok_iff.1 h.valid
  have hstart : Session.start plan.settings = .ok ⟨plan.settings, form⟩ :=
    Session.start_eq_ok_iff.2 ⟨rfl, hform⟩
  refine ⟨form, ?_⟩
  rw [call.completion_eq_run h, run, hstart]

/-- A call with a plan has an analyzer. -/
theorem new_eq_ok (h : plan.Accepted call) :
    Analyzer.new (Rule.settingsFor plan.settings ⟨plan.settings.projectName, plan.directory⟩) =
      .ok ⟨plan.settings.projectName, plan.exclusion, plan.settings.detector,
        .ofFiles plan.settings.fileSuffix plan.exclusion.excludes⟩ := by
  rw [Rule.settingsFor_self]
  exact Analyzer.new_eq_ok_iff.2 ⟨h.valid, plan.exclusion, h.compiles, rfl⟩

/-- A call with a plan ends as the source directory decides. -/
theorem ends (h : plan.Accepted call) :
    Ends plan.format plan.settings (plan.exitCode call.world.tree) call.completion := by
  obtain ⟨form, hcompletion⟩ := h.exists_session
  let session : Session := ⟨plan.settings, form⟩
  let workspace : Workspace := ⟨call.world.tree, none, session.run call.world⟩
  have hload : ((Source.ofFiles plan.settings.fileSuffix plan.exclusion.excludes).load
      workspace.tree none workspace.run.timing plan.root).result = plan.load call.world.tree :=
    Source.result_load_ofFiles _ _
  rw [hcompletion, Plan.exitCode]
  cases hresult : plan.load call.world.tree with
  | ok loaded =>
    obtain ⟨hrule, hreport⟩ := Rule.checkCycles_of_load (w := workspace) h.new_eq_ok
      (hload.trans hresult)
    have hconcludes : (enforcement session.settings plan.directory call.world.tree
        (session.run call.world)).Concludes _ _ := Registry.enforce_of_ok hrule hreport
    have hends : Ends plan.format plan.settings _
        (inSession session plan.directory plan.format call.world) := ends_of_concludes hconcludes
    simp only [Rule.errorMessages_cycleViolations] at hends
    exact hends
  | error cause =>
    dsimp only
    by_cases hmissing : cause.isMissing
    · rw [if_pos hmissing]
      obtain ⟨hrule, hreport⟩ := Rule.checkCycles_of_missing (w := workspace) h.new_eq_ok hmissing
        (hload.trans hresult)
      have hconcludes : (enforcement session.settings plan.directory call.world.tree
          (session.run call.world)).Concludes _ _ := Registry.enforce_of_ok hrule hreport
      exact ends_of_concludes hconcludes
    · rw [if_neg hmissing]
      have herror : (enforcement session.settings plan.directory call.world.tree
          (session.run call.world)).error = some (.rule _ _) := Registry.enforce_of_error
        (Rule.checkCycles_of_unloadable h.new_eq_ok hmissing (hload.trans hresult))
      exact ends_of_error herror

end

end Plan.Accepted

namespace Call

variable {call : Call}

/-- A check that does not fail has a plan, and its source directory decides on the exit code. -/
theorem exitCode_eq_iff {code : Nat} (hcode : code ≠ 2) : call.completion.exitCode = code ↔
    ∃ plan : Plan, plan.Accepted call ∧ plan.exitCode call.world.tree = code := by
  constructor
  · intro hexit
    by_cases haccepted : ∃ plan : Plan, plan.Accepted call
    · obtain ⟨plan, hplan⟩ := haccepted
      exact ⟨plan, hplan, hplan.ends.exitCode_eq.symm.trans hexit⟩
    · have hends := ends_of_not_accepted (not_exists.1 haccepted) .text .default
      exact absurd (hexit.symm.trans hends.exitCode_eq) hcode
  · rintro ⟨plan, hplan, hexit⟩
    exact hplan.ends.exitCode_eq.trans hexit

/-- There is no other exit code than 0, 1 and 2. -/
theorem exitCode_le_two (call : Call) : call.completion.exitCode ≤ 2 := by
  by_cases hcode : call.completion.exitCode = 2
  · exact Nat.le_of_eq hcode
  · obtain ⟨plan, -, hexit⟩ := (exitCode_eq_iff hcode).1 rfl
    exact hexit ▸ plan.exitCode_le_two

end Call

/-- The exit code of a check. It is 1 exactly if the flags and the settings are accepted, the graph
of the source directory can be loaded and has cycles, and cycles make the check fail. It is 0
exactly if they are accepted and there is no source directory, or the graph can be loaded and has no
cycles or these do not make the check fail. In all other cases it is 2. Two calls whose settings
differ at most in the log level and the file for the metrics, and that load the same, end with the
same code, whatever formats they ask for. A document says that the check passed exactly if the code
is 0. -/
theorem exitCode_completion (call : Call) :
    (call.completion.exitCode = 1 ↔ ∃ plan : Plan, plan.Accepted call ∧
      plan.settings.failOnError = true ∧ ∃ loaded, plan.load call.world.tree = .ok loaded ∧
        plan.settings.detector.detect loaded.graph ≠ []) ∧
    (call.completion.exitCode = 0 ↔ ∃ plan : Plan, plan.Accepted call ∧
      (plan.RootMissing call.world.tree ∨ ∃ loaded, plan.load call.world.tree = .ok loaded ∧
        (plan.settings.detector.detect loaded.graph = [] ∨ plan.settings.failOnError = false))) ∧
    (call.completion.exitCode ≠ 1 → call.completion.exitCode ≠ 0 →
      call.completion.exitCode = 2) ∧
    (∀ (call' : Call) (plan plan' : Plan) (level path : Text), plan.Accepted call →
      plan'.Accepted call' →
      plan'.settings =
        { plan.settings with log := { plan.settings.log with level }, metricsFile := path } →
      plan'.load call'.world.tree = plan.load call.world.tree →
      call'.completion.exitCode = call.completion.exitCode) ∧
    (∀ plan : Plan, plan.Accepted call → plan.format = .json →
      (call.completion.exitCode = 2 → call.completion.out = []) ∧
      (call.completion.exitCode ≠ 2 → ∃ passed members,
        call.completion.out = (Json.object (("passed", .bool passed) :: members)).pretty ∧
        (passed = true ↔ call.completion.exitCode = 0))) := by
  refine ⟨?_, ?_, fun h₁ h₀ => ?_, fun call' plan plan' level path h h' hsettings hload => ?_,
    fun plan h hformat => ?_⟩
  · rw [call.exitCode_eq_iff (by decide)]
    simp only [Plan.exitCode_eq_one_iff]
  · rw [call.exitCode_eq_iff (by decide)]
    simp only [Plan.exitCode_eq_zero_iff]
  · have hle := call.exitCode_le_two
    omega
  · rw [h'.ends.exitCode_eq, h.ends.exitCode_eq]
    refine Plan.exitCode_congr hload ?_ ?_
    · rw [hsettings]; rfl
    · rw [hsettings]
  · rw [h.ends.exitCode_eq]
    refine ⟨h.ends.out_eq_nil, fun hne => ?_⟩
    obtain ⟨report, e, hout, hpassed⟩ := h.ends.out_eq_render hne
    rw [hformat] at hout
    exact ⟨passed e, _, hout, hpassed⟩

/-- A check of a project with two packages that import each other. -/
def pairCall (arguments : List Text) : Call where
  program := .initial
  world :=
    { tree :=
        { root := .directory [("src", .directory [("main", .directory [("java", .directory
            [("a", .directory [("A.java", .file "import b.B;" 0 true)] .full),
              ("b", .directory [("B.java", .file "import a.A;" 0 true)] .full)] .full)]
            .full)] .full)] .full
          workingDirectory := [] }
      run := ⟨"run", .none, none⟩
      time := ""
      now := 0
      digits := "" }
  environment := .empty
  arguments := arguments

/-- What the check of the pair goes by if it is asked for a document. -/
def pairPlan : Plan := ⟨".", .json, .default, .nothing⟩

/-- What it goes by if it is asked to log more and to write metrics. -/
def verbosePlan : Plan :=
  { pairPlan with
    format := .text
    settings := { Settings.default with log := ⟨"debug", "text"⟩, metricsFile := "metrics" } }

/-- The check of the pair ends with 1 in either case, and the document says that it did not pass. -/
theorem exitCode_completion_pairCall :
    pairPlan.Accepted (pairCall ["-format", "json"]) ∧
      verbosePlan.Accepted (pairCall ["-verbose", "-metrics-file", "metrics"]) ∧
      (pairCall ["-format", "json"]).completion.exitCode = 1 ∧
      (pairCall ["-verbose", "-metrics-file", "metrics"]).completion.exitCode = 1 ∧
      ∃ members, (pairCall ["-format", "json"]).completion.out =
        (Json.object (("passed", .bool false) :: members)).pretty := by
  have haccepted : pairPlan.Accepted (pairCall ["-format", "json"]) :=
    ⟨⟨⟨⟨.default, "json", []⟩, ["format"]⟩, .default, rfl, rfl, rfl, rfl, rfl⟩,
      Settings.validate_default, rfl⟩
  have hverbose : verbosePlan.Accepted (pairCall ["-verbose", "-metrics-file", "metrics"]) :=
    ⟨⟨⟨⟨{ CommonOptions.default with verbose := true }, "text", "metrics"⟩,
      ["verbose", "metrics-file"]⟩, { Settings.default with log := ⟨"debug", "text"⟩ },
      rfl, rfl, rfl, rfl, rfl⟩,
      Settings.validate_eq_ok_iff.2 (Settings.validate_eq_ok_iff.1 Settings.validate_default), rfl⟩
  obtain ⟨-, -, -, hsame, hdocument⟩ := exitCode_completion (pairCall ["-format", "json"])
  have hcode : (pairCall ["-format", "json"]).completion.exitCode = 1 := by decide +kernel
  obtain ⟨passed, members, hout, hpassed⟩ :=
    (hdocument pairPlan haccepted rfl).2 (by rw [hcode]; decide)
  have hfailed : passed = false := by
    rw [hcode] at hpassed
    simpa using hpassed
  refine ⟨haccepted, hverbose, hcode, ?_, members, hfailed ▸ hout⟩
  rw [hsame _ pairPlan verbosePlan "debug" "metrics" haccepted hverbose rfl rfl, hcode]

end Check

end PackageCycles

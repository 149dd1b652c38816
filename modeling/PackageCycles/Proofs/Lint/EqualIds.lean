import PackageCycles.Proofs.Analysis.LoadedGraph
import PackageCycles.Proofs.Lint.CycleRule
import PackageCycles.Proofs.Settings.CacheId
import PackageCycles.Proofs.Settings.Validation

/-!
# Rules with the same cache id

What the rule against cycles finds in a project depends on the depth, the patterns, the traversal,
whether cycles are an error, the source directory and the suffix of source files
(`Rule.SameVerdict`), and on nothing else in valid settings (`Rule.checkCycles_congr`). A cache id
tells the first four where the patterns and the name can be read from it, and never the last two, so
rules with the same id find the same under these conditions (`Rule.noCycles_cacheId_tells`) and not
in general (`Rule.noCycles_cacheId_hides_pairSettings`).
-/

namespace PackageCycles.Rule

section
variable {s t : Settings} {w : Workspace} {project : Project}

/-! ## What a verdict depends on -/

/-- Everything that the rule looks at in a project is the same under both settings. -/
structure SameVerdict (s t : Settings) (project : Project) : Prop where
  /-- The same cycles are searched for. -/
  maxDepth_eq : s.maxDepth = t.maxDepth
  /-- They are searched for in the same way. -/
  traversalMode_eq : s.traversalMode = t.traversalMode
  /-- The same packages are left out. -/
  excludePatterns_eq : s.excludePatterns = t.excludePatterns
  /-- Cycles are equally serious. -/
  failOnError_eq : s.failOnError = t.failOnError
  /-- The sources are in the same directory. -/
  sourceDirectory_eq : s.sourceDirectory project.directory = t.sourceDirectory project.directory
  /-- Their names end in the same way. -/
  fileSuffix_eq : s.fileSuffix = t.fileSuffix

/-- A project changes nothing in the settings but the name. -/
theorem exists_settingsFor_eq (s : Settings) (project : Project) :
    ∃ name, settingsFor s project = { s with projectName := name } := by
  rw [settingsFor]
  split
  next => exact ⟨s.projectName, rfl⟩
  next => exact ⟨project.name, rfl⟩

/-- The analyzer of valid settings whose patterns can be read. -/
theorem exists_new_settingsFor {exclusion : Exclusion} (hs : s.validate = .ok ())
    (h : Exclusion.compile s.excludePatterns = .ok exclusion) (project : Project) :
    ∃ name, Analyzer.new (settingsFor s project) =
      .ok ⟨name, exclusion, s.detector, .ofFiles s.fileSuffix exclusion.excludes⟩ := by
  obtain ⟨name, hname⟩ := exists_settingsFor_eq s project
  rw [hname]
  exact ⟨name, Analyzer.new_eq_ok_iff.2 ⟨hs, exclusion, h, rfl⟩⟩

theorem new_settingsFor_of_error {cause : PatternError} (hs : s.validate = .ok ())
    (h : Exclusion.compile s.excludePatterns = .error cause) (project : Project) :
    Analyzer.new (settingsFor s project) = .error (.pattern cause) := by
  obtain ⟨name, hname⟩ := exists_settingsFor_eq s project
  have hvalid : ({ s with projectName := name } : Settings).validate = .ok () := hs
  rw [hname, Analyzer.new, hvalid, h]
  rfl

theorem cycleViolations_congr {r r' : Report} (hfail : s.failOnError = t.failOnError)
    (hcycles : r.cycles = r'.cycles) : cycleViolations s r = cycleViolations t r' := by
  have hfound : r.hasCycles = r'.hasCycles := by
    rw [Report.hasCycles, hcycles, Report.hasCycles]
  have hmessage : r.message = r'.message := by
    rw [Report.message, Report.numberedCycles, hfound, hcycles, Report.message,
      Report.numberedCycles]
  rw [cycleViolations, cycleSeverity, hfail, hfound, hmessage, cycleViolations, cycleSeverity]

/-- Valid settings that agree on what the rule looks at lead to the same result. -/
theorem checkCycles_congr (hs : s.validate = .ok ()) (ht : t.validate = .ok ())
    (h : SameVerdict s t project) (w : Workspace) :
    (checkCycles s w project).result = (checkCycles t w project).result := by
  have hpatterns := h.excludePatterns_eq
  cases hcompile : Exclusion.compile s.excludePatterns with
  | error cause =>
    rw [checkCycles_of_error (new_settingsFor_of_error hs hcompile project),
      checkCycles_of_error (new_settingsFor_of_error ht (hpatterns ▸ hcompile) project)]
  | ok exclusion =>
    obtain ⟨name, hnew⟩ := exists_new_settingsFor hs hcompile project
    obtain ⟨name', hnew'⟩ := exists_new_settingsFor ht (hpatterns ▸ hcompile) project
    -- Both analyzers load from the same place, so one outcome of loading decides on both.
    have hsame : ((Source.ofFiles t.fileSuffix exclusion.excludes).load w.tree w.cache
        w.run.timing (t.sourceDirectory project.directory)).result =
      ((Source.ofFiles s.fileSuffix exclusion.excludes).load w.tree w.cache
        w.run.timing (s.sourceDirectory project.directory)).result := by
      rw [h.fileSuffix_eq, h.sourceDirectory_eq]
    cases hload : ((Source.ofFiles s.fileSuffix exclusion.excludes).load w.tree w.cache
        w.run.timing (s.sourceDirectory project.directory)).result with
    | ok loaded =>
      have hdetector : s.detector = t.detector := by
        rw [Settings.detector, h.maxDepth_eq, h.traversalMode_eq, Settings.detector]
      rw [(checkCycles_of_load hnew hload).1,
        (checkCycles_of_load hnew' (hsame.trans hload)).1, cycleViolations_congr h.failOnError_eq]
      exact congrArg (fun d : Detector => d.detect loaded.graph) hdetector
    | error cause =>
      by_cases hmissing : cause.isMissing
      · rw [(checkCycles_of_missing hnew hmissing hload).1,
          (checkCycles_of_missing hnew' hmissing (hsame.trans hload)).1]
      · rw [checkCycles_of_unloadable hnew hmissing hload,
          checkCycles_of_unloadable hnew' hmissing (hsame.trans hload), h.sourceDirectory_eq]

end

/-! ## What a cache id tells of it -/

/-- If the names of the projects are the same or hold no colon, and the patterns can be told from
what they are joined to, then the cache id tells the name, the depth, the patterns, whether cycles
are an error and the traversal. Two rules with the same id then come to the same result, whatever the
files, for each project whose sources are in the same directory and end in the same way under both
settings. -/
theorem noCycles_cacheId_tells (s t : Settings) (hs : s.validate = .ok ())
    (ht : t.validate = .ok ())
    (hname : s.projectName = t.projectName ∨
      Text.byte ':' ∉ s.projectName ∧ Text.byte ':' ∉ t.projectName)
    (hpatterns : Settings.Delimited s.excludePatterns)
    (hpatterns' : Settings.Delimited t.excludePatterns) :
    ((noCycles s).cacheId = (noCycles t).cacheId ↔
      s.projectName = t.projectName ∧ s.maxDepth = t.maxDepth ∧
        s.excludePatterns = t.excludePatterns ∧ s.failOnError = t.failOnError ∧
        s.traversalMode = t.traversalMode) ∧
    ((noCycles s).cacheId = (noCycles t).cacheId → s.fileSuffix = t.fileSuffix →
      ∀ project : Project,
        s.sourceDirectory project.directory = t.sourceDirectory project.directory →
        ∀ w, ((noCycles s).check w project).result = ((noCycles t).check w project).result) := by
  have htells : (noCycles s).cacheId = (noCycles t).cacheId ↔ _ :=
    Settings.cacheId_eq_iff_of_delimited hpatterns hpatterns' hname
  refine ⟨htells, fun hid hsuffix project hdirectory w => ?_⟩
  obtain ⟨-, hdepth, hexclude, hfail, htraversal⟩ := htells.1 hid
  exact checkCycles_congr hs ht ⟨hdepth, htraversal, hexclude, hfail, hdirectory, hsuffix⟩ w

/-- Two packages that import each other, without a cache. -/
def pairWorkspace : Workspace := ⟨Source.pairTree true, none, ⟨"run", .none, none⟩⟩

/-- Settings for the two packages. -/
def pairSettings (patterns : List Text) : Settings :=
  { Settings.default with sourceRoot := "src", excludePatterns := patterns }

/-- Settings for the two packages that name the same things differently. -/
def pairSettingsAnew (patterns : List Text) : Settings :=
  { pairSettings patterns with sourceRoot := "./src", traversal := "", metricsFile := "metrics" }

theorem validate_pairSettings (patterns : List Text) :
    (pairSettings patterns).validate = .ok () ∧ (pairSettingsAnew patterns).validate = .ok () := by
  obtain ⟨hdepth, htraversal, -, hsuffix, hformat, htracing⟩ :=
    Settings.validate_eq_ok_iff.1 Settings.validate_default
  have hroot : ("src" : Text) ≠ [] := by decide
  have hroot' : ("./src" : Text) ≠ [] := by decide
  exact ⟨Settings.validate_eq_ok_iff.2 ⟨hdepth, htraversal, hroot, hsuffix, hformat, htracing⟩,
    Settings.validate_eq_ok_iff.2 ⟨hdepth, ⟨.shared, rfl⟩, hroot', hsuffix, hformat, htracing⟩⟩

/-- What the rule says of the two packages. -/
def pairViolation : Violation :=
  ⟨"no-cyclic-package-dependency", .error, "Cyclic dependencies found:\nCycle 1: a → b → a\n"⟩

/-- Both settings for the two packages have the same id, so the cycle that is found under the ones
is found under the others. -/
theorem noCycles_cacheId_tells_pairSettings :
    (noCycles (pairSettings ["c", "d"])).cacheId =
      (noCycles (pairSettingsAnew ["c", "d"])).cacheId ∧
    ((noCycles (pairSettingsAnew ["c", "d"])).check pairWorkspace ⟨"pair", ""⟩).result.toOption =
      some [pairViolation] := by
  obtain ⟨hs, ht⟩ := validate_pairSettings ["c", "d"]
  obtain ⟨htells, hresult⟩ := noCycles_cacheId_tells _ _ hs ht (.inl rfl) (by decide) (by decide)
  have hid := htells.2 ⟨rfl, rfl, rfl, rfl, rfl⟩
  refine ⟨hid, ?_⟩
  rw [← hresult hid rfl ⟨"pair", ""⟩ (by decide +kernel) pairWorkspace]
  decide +kernel

/-- In general an id tells too little. Two patterns look like one that holds what separates them,
and the suffix is not in the id: under three settings with the same id, the two packages are left
out, found in a cycle and not looked at. -/
theorem noCycles_cacheId_hides_pairSettings :
    (pairSettings ["a", "b"]).validate = .ok () ∧ (pairSettings ["a, b"]).validate = .ok () ∧
    ({ pairSettings ["a, b"] with fileSuffix := ".kt" } : Settings).validate = .ok () ∧
    (noCycles (pairSettings ["a", "b"])).cacheId = (noCycles (pairSettings ["a, b"])).cacheId ∧
    (noCycles { pairSettings ["a, b"] with fileSuffix := ".kt" }).cacheId =
      (noCycles (pairSettings ["a, b"])).cacheId ∧
    ((noCycles (pairSettings ["a", "b"])).check pairWorkspace ⟨"pair", ""⟩).result.toOption =
      some [] ∧
    ((noCycles (pairSettings ["a, b"])).check pairWorkspace ⟨"pair", ""⟩).result.toOption =
      some [pairViolation] ∧
    ((noCycles { pairSettings ["a, b"] with fileSuffix := ".kt" }).check pairWorkspace
      ⟨"pair", ""⟩).result.toOption = some [] := by
  have hvalid := (validate_pairSettings ["a, b"]).1
  obtain ⟨hdepth, htraversal, hroot, -, hlog⟩ := Settings.validate_eq_ok_iff.1 hvalid
  have hsuffix : (".kt" : Text) ≠ [] := by decide
  exact ⟨(validate_pairSettings ["a", "b"]).1, hvalid,
    Settings.validate_eq_ok_iff.2 ⟨hdepth, htraversal, hroot, hsuffix, hlog⟩, by decide +kernel,
    rfl, by decide +kernel, by decide +kernel, by decide +kernel⟩

end PackageCycles.Rule

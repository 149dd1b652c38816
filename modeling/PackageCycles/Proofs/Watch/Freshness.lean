import PackageCycles.Proofs.Analysis.CachedLoad
import PackageCycles.Proofs.Lint.CycleRule
import PackageCycles.Proofs.Settings.Validation
import PackageCycles.Watch.Basic

/-!
# Reports of a watch are fresh

A watch keeps what it has read from one check to the next. What it keeps of a file was read at a check
since which no change has made the watch drop it (`Watch.justified_run`). So a report is that of an
analysis which starts afresh if each unit that looks as it did at an earlier check, but has another
content, was dropped since (`Watch.report_quiet_eq_fresh`). A unit that is replaced by a file of the
same size and time is reported as created, and that does not make the watch drop it: then the report
is out of date (`Watch.report_quiet_misses_replaced`).
-/

namespace PackageCycles

/-! ## What a check needs to know -/

/-- The outcome of an analysis depends on what is loaded. -/
theorem Analyzer.analyze_result_congr {a : Analyzer} {run : Run} {t : FileTree} {root : Text}
    {cache cache' : Option Import.Cache}
    (h : (a.source.load t cache run.timing root).result =
      (a.source.load t cache' run.timing root).result) :
    (a.analyze run t cache root).result = (a.analyze run t cache' root).result := by
  simp only [Analyzer.analyze, h]
  split
  next => rfl
  next => split <;> rfl

theorem Analyzer.cache_analyze {a : Analyzer} {run : Run} {t : FileTree} {root : Text}
    {cache : Option Import.Cache} :
    (a.analyze run t cache root).cache = (a.source.load t cache run.timing root).cache := by
  simp only [Analyzer.analyze]
  split
  next => rfl
  next => split <;> rfl

namespace Watch

/-- The compilation units of the project as it is. -/
def units (w : Watch) : List Text := w.tree.units w.settings.fileSuffix w.sourceDirectory

/-- The visits that a check makes. -/
def visits (w : Watch) : List Import.Visit := w.units.map (⟨w.tree, ·⟩)

/-- The report of an analysis of the files as they are, for which nothing is kept from before. -/
def freshReport (w : Watch) (world : World) : Option Report :=
  match Analyzer.new w.settings with
  | .ok a => (a.analyze (w.session.run world) w.tree none w.sourceDirectory).result.toOption
  | .error _ => none

section
variable {w : Watch} {world : World} {seen : List Import.Visit}

/-- The report of a check, and what is kept after it, are those of the rule against cycles. -/
theorem check_eq (w : Watch) (world : World) :
    let verdict := Rule.checkCycles w.settings ⟨w.tree, some w.cache, w.session.run world⟩
      ⟨w.settings.projectName, w.directory⟩
    (w.check world).2.report = verdict.report ∧
      (w.check world).1.cache = verdict.cache.getD w.cache := by
  obtain ⟨hreport, hcache⟩ := Registry.head?_reports_enforce (.noCycles w.settings)
    ⟨w.tree, some w.cache, w.session.run world⟩ ⟨w.settings.projectName, w.directory⟩
  exact ⟨hreport, congrArg (·.getD w.cache) hcache⟩

/-- The settings of a watch name the project that it checks. -/
theorem check_eq_of_ok {a : Analyzer} (h : Analyzer.new w.settings = .ok a) (world : World) :
    let analysis := a.analyze (w.session.run world) w.tree (some w.cache) w.sourceDirectory
    (w.check world).2.report = analysis.result.toOption ∧
      (w.check world).1.cache = analysis.cache.getD w.cache := by
  obtain ⟨hreport, hcache⟩ := w.check_eq world
  have hnew : Analyzer.new (Rule.settingsFor w.settings ⟨w.settings.projectName, w.directory⟩) =
      .ok a := (congrArg Analyzer.new (Rule.settingsFor_self _ _)).trans h
  obtain ⟨hreport', hcache'⟩ :=
    Rule.report_checkCycles hnew ⟨w.tree, some w.cache, w.session.run world⟩
  exact ⟨hreport.trans hreport', hcache.trans (congrArg (·.getD w.cache) hcache')⟩

theorem check_eq_of_error {cause : SettingsError} (h : Analyzer.new w.settings = .error cause)
    (world : World) :
    (w.check world).2.report = none ∧ (w.check world).1.cache = w.cache := by
  obtain ⟨hreport, hcache⟩ := w.check_eq world
  rw [Rule.checkCycles, Rule.settingsFor_self, h] at hreport hcache
  exact ⟨hreport, hcache⟩

theorem visit_mem_visits {path : Text} (h : path ∈ w.units) : ⟨w.tree, path⟩ ∈ w.visits :=
  List.mem_map_of_mem h

/-- A check keeps what is kept justified, by the visits that it makes too. -/
theorem justified_check (h : w.cache.Justified seen) (world : World) :
    (w.check world).1.cache.Justified (seen ++ w.visits) := by
  have hgrown : w.cache.Justified (seen ++ w.visits) := h.mono (List.subset_append_left _ _)
  cases hnew : Analyzer.new w.settings with
  | error cause =>
    rw [(check_eq_of_error hnew world).2]
    exact hgrown
  | ok a =>
    rw [(check_eq_of_ok hnew world).2, Analyzer.cache_analyze]
    obtain ⟨-, exclusion, -, rfl⟩ := Analyzer.new_eq_ok_iff.1 hnew
    obtain ⟨c', hc', h'⟩ := Source.exists_load_cache exclusion.excludes
      (w.session.run world).timing hgrown fun path hpath => List.mem_append_right _ (visit_mem_visits hpath)
    rw [hc']
    exact h'

/-- The report of a check is fresh if each unit is as it was at every visit since which it may have
been kept, if it had the stamp then that it has now. -/
theorem report_check_eq_fresh (h : w.cache.Justified seen)
    (htold : ∀ path ∈ w.units, (⟨w.tree, path⟩ : Import.Visit).IsTold seen) (world : World) :
    (w.check world).2.report = w.freshReport world := by
  unfold freshReport
  cases hnew : Analyzer.new w.settings with
  | error cause => exact (check_eq_of_error hnew world).1
  | ok a =>
    rw [(check_eq_of_ok hnew world).1]
    obtain ⟨-, exclusion, -, rfl⟩ := Analyzer.new_eq_ok_iff.1 hnew
    refine congrArg Except.toOption (Analyzer.analyze_result_congr ?_)
    refine Source.load_cached (h.mono (List.subset_append_left _ w.visits))
      (fun path hpath => List.mem_append_right _ (visit_mem_visits hpath)) fun path hpath => ?_
    rintro v hv hvpath hstamp heq
    rcases List.mem_append.1 hv with hv | hv
    · exact htold path hpath v hv hvpath hstamp heq
    · -- A visit of this very check to the same path is the same visit.
      obtain ⟨path', -, rfl⟩ := List.mem_map.1 hv
      cases hvpath
      rfl

/-! ## Runs -/

/-- The watch after inputs. -/
def run (w : Watch) : List (World × Input) → Watch
  | [] => w
  | (world, input) :: rest => (w.step world input).1.run rest

theorem step_settings (w : Watch) (world : World) (input : Input) :
    (w.step world input).1.settings = w.settings := by
  match input with
  | .files _ => rfl
  | .change c =>
    simp only [step, note]
    split <;> rfl
  | .quiet =>
    simp only [step]
    split <;> rfl

/-- A change among the inputs makes a watch for units with the suffix drop what it has kept of a
file. -/
def Dropped (suffix path : Text) (inputs : List (World × Input)) : Prop :=
  ∃ world c, (world, .change c) ∈ inputs ∧ c.isRelevant suffix ∧ c.isOfContent ∧ c.path = path

/-- Of some visits and those that an input brings, the ones since which nothing was dropped. -/
def remember (w : Watch) (seen : List Import.Visit) : Input → List Import.Visit
  | .files _ => seen
  | .change c =>
    if c.isRelevant w.settings.fileSuffix && c.isOfContent then seen.filter (·.path ≠ c.path)
    else seen
  | .quiet => if w.due then seen ++ w.visits else seen

/-- Of some visits and those of the checks among the inputs, the ones since which nothing was
dropped. -/
def remembered (w : Watch) (seen : List Import.Visit) : List (World × Input) → List Import.Visit
  | [] => seen
  | (world, input) :: rest => (w.step world input).1.remembered (w.remember seen input) rest

theorem justified_step (h : w.cache.Justified seen) (world : World) (input : Input) :
    (w.step world input).1.cache.Justified (w.remember seen input) := by
  match input with
  | .files _ => exact h
  | .change c =>
    simp only [step, note, remember]
    by_cases hrelevant : c.isRelevant w.settings.fileSuffix
    · by_cases hcontent : c.isOfContent
      · simp only [hrelevant, hcontent, Bool.and_self, if_true]
        exact h.erase_filter c.path
      · simpa [hrelevant, hcontent] using h
    · simpa [hrelevant] using h
  | .quiet =>
    simp only [step, remember]
    split
    next => exact justified_check h world
    next => exact h

/-- What is kept after inputs was read at a check since which it was not dropped. -/
theorem justified_run {inputs : List (World × Input)} (h : w.cache.Justified seen) :
    (w.run inputs).cache.Justified (w.remembered seen inputs) := by
  induction inputs generalizing w seen with
  | nil => exact h
  | cons input rest ih => exact ih (justified_step h input.1 input.2)

/-- What is remembered after an input was remembered before and is not dropped now, or is a visit of a
check that is made now. -/
theorem mem_remember {v : Import.Visit} {input : Input} (h : v ∈ w.remember seen input) :
    v ∈ seen ∧ ¬ Dropped w.settings.fileSuffix v.path [(world, input)] ∨
      input = .quiet ∧ w.due ∧ v ∈ w.visits := by
  match input with
  | .files _ => exact .inl ⟨h, by simp [Dropped]⟩
  | .change c =>
    simp only [remember] at h
    split at h
    next hdrops =>
      obtain ⟨hv, hne⟩ := List.mem_filter.1 h
      refine .inl ⟨hv, ?_⟩
      rintro ⟨world', c', hmem, -, -, hpath⟩
      cases List.mem_singleton.1 hmem
      exact absurd hpath.symm (by simpa using hne)
    next hdrops =>
      refine .inl ⟨h, ?_⟩
      rintro ⟨world', c', hmem, hrelevant, hcontent, -⟩
      cases List.mem_singleton.1 hmem
      exact hdrops (by rw [hrelevant, hcontent]; rfl)
  | .quiet =>
    simp only [remember] at h
    split at h
    next hdue =>
      rcases List.mem_append.1 h with h | h
      · exact .inl ⟨h, by simp [Dropped]⟩
      · exact .inr ⟨rfl, hdue, h⟩
    next => exact .inl ⟨h, by simp [Dropped]⟩

theorem dropped_cons {suffix path : Text} {input : World × Input} {inputs : List (World × Input)} :
    Dropped suffix path (input :: inputs) ↔
      Dropped suffix path [input] ∨ Dropped suffix path inputs := by
  constructor
  · rintro ⟨world, c, hmem, h⟩
    rcases List.mem_cons.1 hmem with heq | hmem
    · exact .inl ⟨world, c, List.mem_singleton.2 heq, h⟩
    · exact .inr ⟨world, c, hmem, h⟩
  · rintro (⟨world, c, hmem, h⟩ | ⟨world, c, hmem, h⟩)
    · exact ⟨world, c, List.mem_cons.2 (.inl (List.mem_singleton.1 hmem)), h⟩
    · exact ⟨world, c, List.mem_cons_of_mem _ hmem, h⟩

/-- What is remembered after inputs is a visit of a check since which its file was not dropped. -/
theorem mem_remembered {v : Import.Visit} {inputs : List (World × Input)}
    (h : v ∈ w.remembered seen inputs) :
    v ∈ seen ∧ ¬ Dropped w.settings.fileSuffix v.path inputs ∨
      ∃ earlier world later, inputs = earlier ++ (world, .quiet) :: later ∧ (w.run earlier).due ∧
        v ∈ (w.run earlier).visits ∧ ¬ Dropped w.settings.fileSuffix v.path later := by
  induction inputs generalizing w seen with
  | nil => exact .inl ⟨h, by simp [Dropped]⟩
  | cons entry rest ih =>
    obtain ⟨world, input⟩ := entry
    rcases ih h with ⟨hv, hrest⟩ | ⟨earlier, world', later, rfl, hdue, hv, hlater⟩
    · rw [step_settings] at hrest
      rcases mem_remember hv with ⟨hseen, hinput⟩ | ⟨rfl, hdue, hvisit⟩
      · exact .inl ⟨hseen, fun hdropped => (dropped_cons.1 hdropped).elim hinput hrest⟩
      · exact .inr ⟨[], world, rest, rfl, hdue, hvisit, hrest⟩
    · rw [step_settings] at hlater
      exact .inr ⟨(world, input) :: earlier, world', later, rfl, hdue, hv, hlater⟩

/-! ## Watches from their first check on -/

/-- The watch after its first check and inputs. -/
def after (w : Watch) (first : World) (inputs : List (World × Input)) : Watch :=
  (w.check first).1.run inputs

/-- A watch that is checked for the first time and then gets inputs was checked before as `old`, and
got the inputs `later` since. -/
inductive CheckedBefore (w : Watch) (first : World) :
    List (World × Input) → (old : Watch) → (later : List (World × Input)) → Prop
  | first (inputs : List (World × Input)) : CheckedBefore w first inputs w inputs
  | again {earlier later : List (World × Input)} {world : World}
      (hdue : (w.after first earlier).due) :
    CheckedBefore w first (earlier ++ (world, .quiet) :: later) (w.after first earlier) later

/-- What is remembered from the first check on comes from a check since which it was not dropped. -/
theorem exists_checkedBefore {first : World} {inputs : List (World × Input)} {v : Import.Visit}
    (h : v ∈ (w.check first).1.remembered w.visits inputs) :
    ∃ old later, CheckedBefore w first inputs old later ∧ v ∈ old.visits ∧
      ¬ Dropped w.settings.fileSuffix v.path later := by
  rcases mem_remembered h with ⟨hv, hdropped⟩ | ⟨earlier, world, later, rfl, hdue, hv, hdropped⟩
  · exact ⟨w, inputs, .first inputs, hv, hdropped⟩
  · exact ⟨_, later, .again hdue, hv, hdropped⟩

/-- A watch starts with nothing kept. -/
theorem start_eq_ok {s : Settings} {directory : Text} {t : FileTree} {session : Session}
    {log : List Log.Entry} (h : start s directory t = .ok (session, log, .ok w)) :
    w.settings = s ∧ w.cache = .new 0 := by
  simp only [start] at h
  split at h
  next =>
    obtain ⟨session', hsession, h⟩ := Success.bind_iff.1 h
    obtain ⟨hsettings, -⟩ := Session.start_eq_ok_iff.1 (Success.mapError_iff.1 hsession)
    split at h
    next =>
      cases h
      exact ⟨hsettings, rfl⟩
    next => cases h
  next => cases h

/-- The first report of a watch is fresh. So is the report of a later check if every compilation unit
that was found by a check before, and has the size and the time that it had then but another content,
was dropped since: it was named by a change that is relevant and is a removal, a renaming or a
writing. -/
theorem report_quiet_eq_fresh {s : Settings} {directory : Text} {t : FileTree} {session : Session}
    {log : List Log.Entry} (hstart : start s directory t = .ok (session, log, .ok w))
    (first world : World) (inputs : List (World × Input))
    (h : ∀ old later, CheckedBefore w first inputs old later → ∀ path ∈ old.units,
      path ∈ (w.after first inputs).units →
      (⟨old.tree, path⟩ : Import.Visit).stamp? =
        (⟨(w.after first inputs).tree, path⟩ : Import.Visit).stamp? →
      (⟨old.tree, path⟩ : Import.Visit).content? ≠
        (⟨(w.after first inputs).tree, path⟩ : Import.Visit).content? →
      Dropped s.fileSuffix path later) :
    (w.check first).2.report = w.freshReport first ∧
      ((w.after first inputs).due → ((w.after first inputs).step world .quiet).2.report =
        (w.after first inputs).freshReport world) := by
  obtain ⟨rfl, hcache⟩ := start_eq_ok hstart
  have hempty : w.cache.Justified [] := hcache ▸ .new [] 0
  refine ⟨report_check_eq_fresh hempty (fun _ _ _ hv => nomatch hv) first, fun hdue => ?_⟩
  have hstep : (w.after first inputs).step world .quiet = (w.after first inputs).check world := by
    rw [step, if_pos hdue]
  have hkept : (w.after first inputs).cache.Justified
      ((w.check first).1.remembered w.visits inputs) :=
    justified_run (justified_check hempty first)
  rw [hstep]
  refine report_check_eq_fresh hkept (fun path hpath v hv hvpath _ hstamp => ?_) world
  obtain ⟨old, later, hbefore, hvisit, hdropped⟩ := exists_checkedBefore hv
  obtain ⟨path', hpath', rfl⟩ := List.mem_map.1 hvisit
  cases hvpath
  -- A unit with another content would have been dropped after this visit.
  by_contra hne
  exact hdropped (h old later hbefore _ hpath' hpath hstamp.symm fun heq => hne heq.symm)

end

/-- A source directory with two packages, the first of which depends on the second, and the second on
the package that is given. -/
def dependentTree (target : Text) : FileTree where
  root := .directory [("src", .directory
    [("a", .directory [("A.java", .file "import b.B;" 0 true)] .full),
      ("b", .directory [("B.java", .file (("import " : Text) ++ target ++ ".C;") 0 true)] .full)]
    .full)] .full
  workingDirectory := []

/-- Settings for the source directory. -/
def dependentSettings : Settings := { Settings.default with sourceRoot := "src" }

/-- A world in which nothing takes any time. -/
def timeless : World := ⟨.empty, ⟨"run", .none, none⟩, "now", 0, "0"⟩

/-- The watch of the two packages as it starts. -/
def dependentWatch : Watch :=
  ⟨⟨dependentSettings, .text⟩, ".", dependentTree "c", .new 0, .empty, false⟩

theorem start_dependentSettings :
    ∃ session log, start dependentSettings "." (dependentTree "c") =
      .ok (session, log, .ok dependentWatch) := by
  have hsession : Session.start dependentSettings = .ok ⟨dependentSettings, .text⟩ :=
    Session.start_eq_ok_iff.2 ⟨rfl, Log.Format.parse_text⟩
  obtain ⟨entries, hstat⟩ : ∃ entries, (dependentTree "c").stat
      (dependentSettings.sourceDirectory ".") = .ok (.directory entries .full) := ⟨_, rfl⟩
  have hwatch : isWatchable (dependentTree "c") (dependentSettings.sourceDirectory ".") := by
    decide +kernel
  simp only [start, hstat, hsession, hwatch]
  exact ⟨_, _, rfl⟩

/-- The file of the second package is replaced by one of the same size and time that depends on the
first, and a change of the given kind is reported. -/
def replacement (kind : ChangeKind) : List (World × Input) :=
  [(timeless, .files (dependentTree "a")), (timeless, .change ⟨"src/b/B.java", [kind]⟩)]

/-- If the replacement is reported as a writing, the cycle that it brings is in the next report. -/
theorem report_quiet_eq_fresh_written :
    (∃ session log, start dependentSettings "." (dependentTree "c") =
      .ok (session, log, .ok dependentWatch)) ∧
    ((dependentWatch.after timeless (replacement .write)).step timeless .quiet).2.report =
      (dependentWatch.after timeless (replacement .write)).freshReport timeless ∧
    ((dependentWatch.after timeless (replacement .write)).freshReport timeless).map (·.cycles) =
      some [[("a" : Text), ("b" : Text), ("a" : Text)]] := by
  refine ⟨start_dependentSettings, ?_, by decide +kernel⟩
  obtain ⟨session, log, hstart⟩ := start_dependentSettings
  refine (report_quiet_eq_fresh hstart timeless timeless (replacement .write) ?_).2
    (by decide +kernel)
  intro old later hbefore path hpath _ _ hcontent
  generalize hinputs : replacement .write = inputs at hbefore
  cases hbefore with
  | first =>
    subst hinputs
    have hunits : dependentWatch.units = ["src/a/A.java", "src/b/B.java"] := by decide +kernel
    rw [hunits] at hpath
    rcases List.mem_cons.1 hpath with rfl | hpath
    · exact absurd (by decide +kernel) hcontent
    · cases List.mem_singleton.1 hpath
      exact ⟨timeless, ⟨"src/b/B.java", [.write]⟩, .tail _ (.head _), by decide, by decide, rfl⟩
  | @again earlier later world _ =>
    -- There is no other check among the inputs.
    have hquiet : (world, Input.quiet) ∈ replacement .write := hinputs ▸ by simp
    simp [replacement] at hquiet

/-- A file that takes the place of another one is reported as created. Although the change is
relevant and names the only unit whose content has changed since the check before, the next report
misses the cycle that an analysis without anything kept finds. -/
theorem report_quiet_misses_replaced :
    (∃ session log, start dependentSettings "." (dependentTree "c") =
      .ok (session, log, .ok dependentWatch)) ∧
    (∀ path ∈ (dependentWatch.after timeless (replacement .create)).units,
      (⟨dependentWatch.tree, path⟩ : Import.Visit).content? ≠
        (⟨(dependentWatch.after timeless (replacement .create)).tree, path⟩ :
          Import.Visit).content? → path = "src/b/B.java") ∧
    (⟨"src/b/B.java", [.create]⟩ : Change).isRelevant dependentSettings.fileSuffix ∧
    (dependentWatch.after timeless (replacement .create)).due ∧
    (((dependentWatch.after timeless (replacement .create)).step timeless .quiet).2.report.map
      (·.cycles)) = some [] ∧
    ((dependentWatch.after timeless (replacement .create)).freshReport timeless).map (·.cycles) =
      some [[("a" : Text), ("b" : Text), ("a" : Text)]] :=
  ⟨start_dependentSettings, by decide +kernel, by decide +kernel, by decide +kernel,
    by decide +kernel, by decide +kernel⟩

end Watch

end PackageCycles

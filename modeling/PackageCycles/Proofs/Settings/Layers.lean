import PackageCycles.Proofs.Settings.Validation
import PackageCycles.Proofs.Yaml.Related
import PackageCycles.Settings.File
import PackageCycles.Settings.Variables

/-!
# Layers of settings

Settings come in layers, each of which provides some of them (`Settings.Layer`): the settings in
effect are taken from the first layer that provides them and from the defaults otherwise
(`Settings.Layer.applyTo`). What a file provides is what is read from it into an empty layer, and
with any lawful reader, reading it into the defaults comes to the same
(`Settings.Layer.read_eq_ok_iff`). The environment provides the settings whose variables are set
(`Settings.withVariables_eq_ok_iff`).
-/

namespace PackageCycles.Settings

/-- Settings as far as they are provided. -/
structure Layer where
  /-- The name of the project. -/
  projectName : Option Text
  /-- The directory of the sources. -/
  sourceRoot : Option Text
  /-- How the names of source files end. -/
  fileSuffix : Option Text
  /-- The greatest number of packages on a cycle. -/
  maxDepth : Option Int
  /-- The patterns of the packages that are left out. -/
  excludePatterns : Option (List Text)
  /-- Cycles make a check fail. -/
  failOnError : Option Bool
  /-- The name of the traversal. -/
  traversal : Option Text
  /-- The name of the level of the log. -/
  logLevel : Option Text
  /-- The name of the format of the log. -/
  logFormat : Option Text
  /-- The file that metrics are written to. -/
  metricsFile : Option Text
  /-- Traces are recorded. -/
  tracingEnabled : Option Bool
  /-- Where traces are sent. -/
  tracingEndpoint : Option Text
  /-- The name under which traces are recorded. -/
  tracingServiceName : Option Text
  /-- Traces are sent without encryption. -/
  tracingInsecure : Option Bool
  deriving DecidableEq

namespace Layer

/-- Nothing is provided. -/
def empty : Layer :=
  ⟨none, none, none, none, none, none, none, none, none, none, none, none, none, none⟩

/-- What one layer provides and, where it provides nothing, another one. -/
def orElse (l l' : Layer) : Layer where
  projectName := l.projectName <|> l'.projectName
  sourceRoot := l.sourceRoot <|> l'.sourceRoot
  fileSuffix := l.fileSuffix <|> l'.fileSuffix
  maxDepth := l.maxDepth <|> l'.maxDepth
  excludePatterns := l.excludePatterns <|> l'.excludePatterns
  failOnError := l.failOnError <|> l'.failOnError
  traversal := l.traversal <|> l'.traversal
  logLevel := l.logLevel <|> l'.logLevel
  logFormat := l.logFormat <|> l'.logFormat
  metricsFile := l.metricsFile <|> l'.metricsFile
  tracingEnabled := l.tracingEnabled <|> l'.tracingEnabled
  tracingEndpoint := l.tracingEndpoint <|> l'.tracingEndpoint
  tracingServiceName := l.tracingServiceName <|> l'.tracingServiceName
  tracingInsecure := l.tracingInsecure <|> l'.tracingInsecure

/-- What a layer provides, and the given settings otherwise. -/
def applyTo (l : Layer) (s : Settings) : Settings where
  projectName := l.projectName.getD s.projectName
  sourceRoot := l.sourceRoot.getD s.sourceRoot
  fileSuffix := l.fileSuffix.getD s.fileSuffix
  maxDepth := l.maxDepth.getD s.maxDepth
  excludePatterns := l.excludePatterns.getD s.excludePatterns
  failOnError := l.failOnError.getD s.failOnError
  traversal := l.traversal.getD s.traversal
  log := ⟨l.logLevel.getD s.log.level, l.logFormat.getD s.log.format⟩
  metricsFile := l.metricsFile.getD s.metricsFile
  tracing := ⟨l.tracingEnabled.getD s.tracing.enabled, l.tracingEndpoint.getD s.tracing.endpoint,
    l.tracingServiceName.getD s.tracing.serviceName, l.tracingInsecure.getD s.tracing.insecure⟩

section
variable {l l' : Layer} {s : Settings}

theorem getD_orElse {α : Type} (a b : Option α) (d : α) : (a <|> b).getD d = a.getD (b.getD d) := by
  cases a <;> rfl

theorem empty_applyTo : empty.applyTo s = s := rfl

/-- A layer above another one. -/
theorem orElse_applyTo : (l.orElse l').applyTo s = l.applyTo (l'.applyTo s) := by
  simp only [applyTo, orElse, getD_orElse]

end

/-! ## What a file provides -/

/-- The fields of the log settings in a file. -/
def logFields : List (Text × Yaml.Field Layer) :=
  [("level", .text fun t l => { l with logLevel := some t }),
   ("format", .text fun t l => { l with logFormat := some t })]

/-- The fields of the metrics settings in a file. -/
def metricsFields : List (Text × Yaml.Field Layer) :=
  [("textfile", .text fun t l => { l with metricsFile := some t })]

/-- The fields of the tracing settings in a file. -/
def tracingFields : List (Text × Yaml.Field Layer) :=
  [("enabled", .bool fun b l => { l with tracingEnabled := some b }),
   ("endpoint", .text fun t l => { l with tracingEndpoint := some t }),
   ("serviceName", .text fun t l => { l with tracingServiceName := some t }),
   ("insecure", .bool fun b l => { l with tracingInsecure := some b })]

/-- The fields of a file, each of which provides one setting. -/
def fields : Yaml.Field Layer :=
  .record "config.Config"
    [("projectName", .text fun t l => { l with projectName := some t }),
     ("sourceRoot", .text fun t l => { l with sourceRoot := some t }),
     ("fileSuffix", .text fun t l => { l with fileSuffix := some t }),
     ("maxDepth", .int fun n l => { l with maxDepth := some n }),
     ("excludePatterns", .texts fun ts l => { l with excludePatterns := some ts }),
     ("failOnError", .bool fun b l => { l with failOnError := some b }),
     ("traversal", .text fun t l => { l with traversal := some t }),
     ("log", .record "config.LogConfig" logFields),
     ("metrics", .record "config.MetricsConfig" metricsFields),
     ("tracing", .record "config.TracingConfig" tracingFields)]

/-- What the text of a file provides. -/
def ofText (content : Text) : Except Yaml.ReadError Layer := Yaml.fill fields empty content

open Yaml in
/-- A field that is set in a layer is set in the settings that the layer is laid over. -/
theorem related_fields (s : Settings) :
    Field.Related (fun l s' => s' = applyTo l s) fields Settings.fields := by
  have hset : ∀ {α : Type} {set : α → Layer → Layer} {set' : α → Settings → Settings},
      (∀ a l, set' a (applyTo l s) = applyTo (set a l) s) →
        ∀ a l s', s' = applyTo l s → set' a s' = applyTo (set a l) s :=
    fun h a l _ hl => hl ▸ h a l
  have hlog : FieldsRelated (fun l s' => s' = applyTo l s) logFields Settings.logFields :=
    .cons (.text (hset fun _ _ => rfl)) <| .cons (.text (hset fun _ _ => rfl)) .nil
  have hmetrics :
      FieldsRelated (fun l s' => s' = applyTo l s) metricsFields Settings.metricsFields :=
    .cons (.text (hset fun _ _ => rfl)) .nil
  have htracing :
      FieldsRelated (fun l s' => s' = applyTo l s) tracingFields Settings.tracingFields :=
    .cons (.bool (hset fun _ _ => rfl)) <| .cons (.text (hset fun _ _ => rfl)) <|
      .cons (.text (hset fun _ _ => rfl)) <| .cons (.bool (hset fun _ _ => rfl)) .nil
  exact .record <|
    .cons (.text (hset fun _ _ => rfl)) <| .cons (.text (hset fun _ _ => rfl)) <|
    .cons (.text (hset fun _ _ => rfl)) <| .cons (.int (hset fun _ _ => rfl)) <|
    .cons (.texts (hset fun _ _ => rfl)) <| .cons (.bool (hset fun _ _ => rfl)) <|
    .cons (.text (hset fun _ _ => rfl)) <| .cons (.record hlog) <| .cons (.record hmetrics) <|
    .cons (.record htracing) .nil

/-- Reading a text over settings gives what it provides over them. -/
theorem read_eq_ok_iff {read : ∀ {σ : Type}, Yaml.Field σ → σ → Text → Except Yaml.ReadError σ}
    [hread : Yaml.LawfulReader read] {s s' : Settings} {content : Text} :
    read Settings.fields s content = .ok s' ↔
      ∃ l, read fields empty content = .ok l ∧ s' = applyTo l s := by
  rcases hread.related (related_fields s) empty_applyTo.symm content with
    ⟨e, hlayer, hsettings⟩ | ⟨l, _, hlayer, hsettings, rfl⟩
  · refine ⟨fun h => ?_, fun ⟨l, h, _⟩ => ?_⟩
    · cases hsettings.symm.trans h
    · cases hlayer.symm.trans h
  · refine ⟨fun h => ⟨l, hlayer, ?_⟩, fun ⟨l', h, heq⟩ => ?_⟩
    · cases hsettings.symm.trans h
      rfl
    · cases hlayer.symm.trans h
      exact heq ▸ hsettings

end Layer

section
variable {s : Settings} {t : FileTree} {env : Environment}

/-- The settings of the text of a file are what it provides over the defaults. -/
theorem ofText_eq_ok_iff {content : Text} :
    ofText content = .ok s ↔ ∃ l, Layer.ofText content = .ok l ∧ s = l.applyTo default :=
  Layer.read_eq_ok_iff

/-- A layer is what the file at a path provides; without a path it is empty. -/
def Layer.IsOfFile (t : FileTree) : Option Text → Layer → Prop
  | none, l => l = .empty
  | some path, l => ∃ content, t.readContent path = .ok content ∧ Layer.ofText content = .ok l

theorem load_eq_ok_iff {path : Text} :
    load t path = .ok s ↔ ∃ l, Layer.IsOfFile t (some path) l ∧ s = l.applyTo default := by
  simp only [load, Success.bind_iff, Success.mapError_iff, ofText_eq_ok_iff, Layer.IsOfFile]
  constructor
  · rintro ⟨content, hcontent, l, hl, rfl⟩
    exact ⟨l, ⟨content, hcontent, hl⟩, rfl⟩
  · rintro ⟨l, ⟨content, hcontent, hl⟩, rfl⟩
    exact ⟨content, hcontent, l, hl, rfl⟩

/-- The settings of a directory are what the first of its settings files provides over the
defaults. -/
theorem loadFromDirectory_eq_ok_iff {directory : Text} : loadFromDirectory t directory = .ok s ↔
    ∃ l, Layer.IsOfFile t ((fileNames.map (Path.join directory)).find? (t.exists? ·)) l ∧
      s = l.applyTo default := by
  unfold loadFromDirectory
  cases (fileNames.map (Path.join directory)).find? fun path => t.exists? path with
  | none => simp [Layer.IsOfFile, Layer.empty_applyTo, eq_comm]
  | some path => exact load_eq_ok_iff

/-! ## What the environment provides -/

/-- The value of a variable that says yes. -/
def isYes (value : Text) : Bool := value.lowerWord = "true" || value = "1"

/-- What the environment provides. A variable that is empty provides nothing, but for the one with
the patterns. -/
def Layer.ofVariables (env : Environment) : Layer where
  projectName := env.nonempty? "PKGCYCLE_PROJECT_NAME"
  sourceRoot := env.nonempty? "PKGCYCLE_SOURCE_ROOT"
  fileSuffix := env.nonempty? "PKGCYCLE_FILE_SUFFIX"
  maxDepth := (env.nonempty? "PKGCYCLE_MAX_DEPTH").bind fun value =>
    (Integer.parse 10 value).toOption
  excludePatterns := (env.get? "PKGCYCLE_EXCLUDE_PATTERNS").map splitPatterns
  failOnError := (env.nonempty? "PKGCYCLE_FAIL_ON_ERROR").map isYes
  traversal := env.nonempty? "PKGCYCLE_TRAVERSAL"
  logLevel := env.nonempty? "PKGCYCLE_LOG_LEVEL"
  logFormat := env.nonempty? "PKGCYCLE_LOG_FORMAT"
  metricsFile := env.nonempty? "PKGCYCLE_METRICS_TEXTFILE"
  tracingEnabled := (env.nonempty? "PKGCYCLE_OTEL_ENABLED").map isYes
  tracingEndpoint := env.nonempty? "PKGCYCLE_OTEL_ENDPOINT"
  tracingServiceName := env.nonempty? "PKGCYCLE_OTEL_SERVICE_NAME"
  tracingInsecure := (env.nonempty? "PKGCYCLE_OTEL_INSECURE").map isYes

theorem boolOr_eq (env : Environment) (name : Text) (b : Bool) :
    boolOr env name b = ((env.nonempty? name).map isYes).getD b := by
  unfold boolOr
  cases env.nonempty? name <;> rfl

theorem intOr_eq_ok_iff {name : Text} {n m : Int} : intOr env name n = .ok m ↔
    (∀ value, env.nonempty? name = some value → ∃ k, Integer.parse 10 value = .ok k) ∧
      m = ((env.nonempty? name).bind fun value => (Integer.parse 10 value).toOption).getD n := by
  unfold intOr
  cases env.nonempty? name with
  | none => simp [eq_comm]
  | some value =>
    cases hparse : Integer.parse 10 value with
    | error fault => simp [hparse]
    | ok k => simp [hparse, Except.toOption, eq_comm]

/-- The environment is laid over the settings, if the depth in it is an integer. -/
theorem withVariables_eq_ok_iff {s' : Settings} : s.withVariables env = .ok s' ↔
    (∀ value, env.nonempty? "PKGCYCLE_MAX_DEPTH" = some value →
      ∃ n, Integer.parse 10 value = .ok n) ∧ s' = (Layer.ofVariables env).applyTo s := by
  simp only [withVariables, Success.bind_iff, intOr_eq_ok_iff, textOr, boolOr_eq]
  constructor
  · rintro ⟨n, ⟨hdepth, rfl⟩, ⟨⟩⟩
    exact ⟨hdepth, rfl⟩
  · rintro ⟨hdepth, rfl⟩
    exact ⟨_, ⟨hdepth, rfl⟩, rfl⟩

end

end PackageCycles.Settings

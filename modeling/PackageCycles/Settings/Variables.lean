import PackageCycles.Environment
import PackageCycles.Integer
import PackageCycles.Settings.Basic
import PackageCycles.Text.Blank

/-!
# Settings from environment variables

A variable that is set and not empty overrides the setting that it names. The variable with the
exclusion patterns counts even if it is empty: there are then no patterns.
-/

namespace PackageCycles.Settings

/-- A variable that has to hold an integer and does not. -/
structure VariableError where
  /-- The name of the variable. -/
  name : Text
  /-- Its value. -/
  value : Text
  /-- What is wrong with it. -/
  fault : Integer.Fault
  deriving DecidableEq

/-- The wording of the error. -/
def VariableError.message (e : VariableError) : Text :=
  ("invalid " : Text) ++ e.name ++ " " ++ e.value.quoted ++ ": strconv.Atoi: parsing " ++
    e.value.quoted ++ ": " ++
    (match e.fault with
      | .malformed => ("invalid syntax" : Text)
      | .outOfRange => "value out of range")

/-- The patterns in a variable: one on each line if there are several lines, else between commas.
Blanks around patterns do not matter, and empty ones are left out. -/
def splitPatterns (value : Text) : List Text :=
  let separator := if value.contains (Text.byte '\n') then Text.byte '\n' else Text.byte ','
  ((value.splitOn separator).map Text.trim).filter (· ≠ [])

/-- The text in a variable, or the one given. -/
def textOr (env : Environment) (name default : Text) : Text := (env.nonempty? name).getD default

/-- The truth value in a variable, or the one given. Only `true` in any case and `1` are true. -/
def boolOr (env : Environment) (name : Text) (default : Bool) : Bool :=
  match env.nonempty? name with
  | some value => value.lowerWord = "true" || value = "1"
  | none => default

/-- The integer in a variable, or the one given. -/
def intOr (env : Environment) (name : Text) (default : Int) : Except VariableError Int :=
  match env.nonempty? name with
  | some value =>
    match Integer.parse 10 value with
    | .ok n => .ok n
    | .error fault => .error ⟨name, value, fault⟩
  | none => .ok default

/-- The variables that settings are taken from. -/
def variableNames : List String :=
  ["PKGCYCLE_PROJECT_NAME", "PKGCYCLE_SOURCE_ROOT", "PKGCYCLE_FILE_SUFFIX", "PKGCYCLE_MAX_DEPTH",
   "PKGCYCLE_EXCLUDE_PATTERNS", "PKGCYCLE_FAIL_ON_ERROR", "PKGCYCLE_TRAVERSAL",
   "PKGCYCLE_LOG_LEVEL", "PKGCYCLE_LOG_FORMAT", "PKGCYCLE_METRICS_TEXTFILE",
   "PKGCYCLE_OTEL_ENABLED", "PKGCYCLE_OTEL_ENDPOINT", "PKGCYCLE_OTEL_SERVICE_NAME",
   "PKGCYCLE_OTEL_INSECURE"]

/-- The settings with those overridden that environment variables name. -/
def withVariables (s : Settings) (env : Environment) : Except VariableError Settings := do
  let maxDepth ← intOr env "PKGCYCLE_MAX_DEPTH" s.maxDepth
  return {
    projectName := textOr env "PKGCYCLE_PROJECT_NAME" s.projectName
    sourceRoot := textOr env "PKGCYCLE_SOURCE_ROOT" s.sourceRoot
    fileSuffix := textOr env "PKGCYCLE_FILE_SUFFIX" s.fileSuffix
    maxDepth := maxDepth
    excludePatterns := ((env.get? "PKGCYCLE_EXCLUDE_PATTERNS").map splitPatterns).getD
      s.excludePatterns
    failOnError := boolOr env "PKGCYCLE_FAIL_ON_ERROR" s.failOnError
    traversal := textOr env "PKGCYCLE_TRAVERSAL" s.traversal
    log := ⟨textOr env "PKGCYCLE_LOG_LEVEL" s.log.level,
      textOr env "PKGCYCLE_LOG_FORMAT" s.log.format⟩
    metricsFile := textOr env "PKGCYCLE_METRICS_TEXTFILE" s.metricsFile
    tracing := ⟨boolOr env "PKGCYCLE_OTEL_ENABLED" s.tracing.enabled,
      textOr env "PKGCYCLE_OTEL_ENDPOINT" s.tracing.endpoint,
      textOr env "PKGCYCLE_OTEL_SERVICE_NAME" s.tracing.serviceName,
      boolOr env "PKGCYCLE_OTEL_INSECURE" s.tracing.insecure⟩ }

end PackageCycles.Settings

import PackageCycles.Detector
import PackageCycles.Log.Line
import PackageCycles.Path
import PackageCycles.Scan

/-!
# Settings

What an analysis depends on besides the sources, with the defaults and the rules that settings have
to keep (`Settings.validate`).
-/

namespace PackageCycles

/-- Settings of the log. -/
structure LogSettings where
  /-- The name of the level. -/
  level : Text
  /-- The name of the format. -/
  format : Text
  deriving DecidableEq

/-- Settings of traces. -/
structure TracingSettings where
  /-- Traces are recorded. -/
  enabled : Bool
  /-- Where they are sent. -/
  endpoint : Text
  /-- The name under which they are recorded. -/
  serviceName : Text
  /-- They are sent without encryption. -/
  insecure : Bool
  deriving DecidableEq

/-- What an analysis depends on besides the sources. -/
structure Settings where
  /-- The name of the project. -/
  projectName : Text
  /-- The directory of the sources, from the directory of the project. -/
  sourceRoot : Text
  /-- How the names of source files end. -/
  fileSuffix : Text
  /-- The greatest number of packages on a cycle that is searched for. -/
  maxDepth : Int
  /-- The patterns of the packages that are left out. -/
  excludePatterns : List Text
  /-- Cycles make a check fail. -/
  failOnError : Bool
  /-- The name of the traversal. -/
  traversal : Text
  /-- Settings of the log. -/
  log : LogSettings
  /-- The file that metrics are written to, or the empty text. -/
  metricsFile : Text
  /-- Settings of traces. -/
  tracing : TracingSettings
  deriving DecidableEq

namespace Settings

/-- The settings where nothing is said. -/
def default : Settings where
  projectName := "Unknown Project"
  sourceRoot := "src/main/java"
  fileSuffix := defaultSuffix
  maxDepth := Detector.defaultMaxDepth
  excludePatterns := []
  failOnError := true
  traversal := "shared"
  log := ⟨"info", "text"⟩
  metricsFile := ""
  tracing := ⟨false, "localhost:4317", "pkgcycle", true⟩

/-- A rule that settings do not keep. -/
inductive Violation where
  | maxDepth (n : Int)
  | traversal (e : Traversal.Unknown)
  | noSourceRoot
  | noFileSuffix
  | logFormat (e : Log.Format.Unknown)
  | noEndpoint
  | noServiceName
  deriving DecidableEq

/-- What is said of a rule that is not kept. -/
def Violation.message : Violation → Text
  | .maxDepth n => ("maxDepth must be at least 1, got " : Text) ++ Text.ofInt n
  | .traversal e => e.message
  | .noSourceRoot => "sourceRoot is required"
  | .noFileSuffix => "fileSuffix is required"
  | .logFormat e => e.message
  | .noEndpoint => "tracing endpoint is required when tracing is enabled"
  | .noServiceName => "tracing service name is required when tracing is enabled"

/-- The first rule that the settings do not keep. -/
def validate (s : Settings) : Except Violation Unit := do
  if s.maxDepth < 1 then throw (.maxDepth s.maxDepth)
  let _ ← (Traversal.parse s.traversal).mapError .traversal
  if s.sourceRoot = [] then throw .noSourceRoot
  if s.fileSuffix = [] then throw .noFileSuffix
  let _ ← (Log.Format.parse s.log.format).mapError .logFormat
  if s.tracing.enabled then
    if s.tracing.endpoint = [] then throw .noEndpoint
    if s.tracing.serviceName = [] then throw .noServiceName

/-- The traversal; a name that is none stands for the shared one. -/
def traversalMode (s : Settings) : Traversal :=
  match Traversal.parse s.traversal with
  | .ok traversal => traversal
  | .error _ => .shared

/-- The detector of the settings. -/
def detector (s : Settings) : Detector := Detector.new s.maxDepth s.traversalMode

/-- A text that identifies the settings of the rule against cycles. -/
def cacheId (s : Settings) : Text :=
  Text.join ":" [("NoCyclicPackageDependencyRule" : Text), s.projectName, Text.ofInt s.maxDepth,
    ("[" : Text) ++ Text.join ", " s.excludePatterns ++ "]", Text.ofBool s.failOnError,
    s.traversalMode.name]

/-- The directory of the sources of a project. -/
def sourceDirectory (s : Settings) (base : Text) : Text :=
  if Path.isAbsolute s.sourceRoot then s.sourceRoot else Path.join base s.sourceRoot

end Settings

end PackageCycles

import PackageCycles.FileTree.Change
import PackageCycles.Settings.Basic
import PackageCycles.Yaml.Record
import PackageCycles.Yaml.Writer

/-!
# Settings files

Settings are kept in a file of the project directory. What a file does not name keeps its default.
-/

namespace PackageCycles.Settings

/-- The fields of the log settings in a file. -/
def logFields : List (Text × Yaml.Field Settings) :=
  [("level", .text fun t s => { s with log := { s.log with level := t } }),
   ("format", .text fun t s => { s with log := { s.log with format := t } })]

/-- The fields of the metrics settings in a file. -/
def metricsFields : List (Text × Yaml.Field Settings) :=
  [("textfile", .text fun t s => { s with metricsFile := t })]

/-- The fields of the tracing settings in a file. -/
def tracingFields : List (Text × Yaml.Field Settings) :=
  [("enabled", .bool fun b s => { s with tracing := { s.tracing with enabled := b } }),
   ("endpoint", .text fun t s => { s with tracing := { s.tracing with endpoint := t } }),
   ("serviceName", .text fun t s => { s with tracing := { s.tracing with serviceName := t } }),
   ("insecure", .bool fun b s => { s with tracing := { s.tracing with insecure := b } })]

/-- The settings in a file. -/
def fields : Yaml.Field Settings :=
  .record "config.Config"
    [("projectName", .text fun t s => { s with projectName := t }),
     ("sourceRoot", .text fun t s => { s with sourceRoot := t }),
     ("fileSuffix", .text fun t s => { s with fileSuffix := t }),
     ("maxDepth", .int fun n s => { s with maxDepth := n }),
     ("excludePatterns", .texts fun ts s => { s with excludePatterns := ts }),
     ("failOnError", .bool fun b s => { s with failOnError := b }),
     ("traversal", .text fun t s => { s with traversal := t }),
     ("log", .record "config.LogConfig" logFields),
     ("metrics", .record "config.MetricsConfig" metricsFields),
     ("tracing", .record "config.TracingConfig" tracingFields)]

/-- The settings as they are written to a file. -/
def toDocument (s : Settings) : List (Text × Yaml.Written) :=
  [("projectName", .text s.projectName),
   ("sourceRoot", .text s.sourceRoot),
   ("fileSuffix", .text s.fileSuffix),
   ("maxDepth", .int s.maxDepth),
   ("excludePatterns", .texts s.excludePatterns),
   ("failOnError", .bool s.failOnError),
   ("traversal", .text s.traversal),
   ("log", .record [("level", .text s.log.level), ("format", .text s.log.format)]),
   ("metrics", .record [("textfile", .text s.metricsFile)]),
   ("tracing", .record [("enabled", .bool s.tracing.enabled),
     ("endpoint", .text s.tracing.endpoint), ("serviceName", .text s.tracing.serviceName),
     ("insecure", .bool s.tracing.insecure)])]

/-- The text of a settings file. -/
def toText (s : Settings) : Text := Yaml.writeFields 0 s.toDocument

/-- Why settings could not be loaded. -/
inductive LoadError where
  /-- The file could not be opened or read. -/
  | unreadable (cause : FileError)
  /-- Its content is not that of a settings file. -/
  | malformed (path : Text) (cause : Yaml.ReadError)
  deriving DecidableEq

/-- The wording of the error. -/
def LoadError.message : LoadError → Text
  | .unreadable cause => cause.message
  | .malformed path cause => ("failed to parse " : Text) ++ path ++ ": " ++ cause.message

/-- The settings of the text of a file. -/
def ofText (content : Text) : Except Yaml.ReadError Settings := Yaml.fill fields default content

/-- The settings of a file. -/
def load (t : FileTree) (path : Text) : Except LoadError Settings := do
  let content ← (t.readContent path).mapError .unreadable
  (ofText content).mapError (.malformed path)

/-- The names of settings files, the first one that exists being taken. -/
def fileNames : List Text :=
  ["pkgcycle.yaml", "pkgcycle.yml", ".pkgcycle.yaml", ".pkgcycle.yml"]

/-- The settings of a project directory; the defaults if it has no settings file. -/
def loadFromDirectory (t : FileTree) (directory : Text) : Except LoadError Settings :=
  match (fileNames.map (Path.join directory)).find? fun path => t.exists? path with
  | some path => load t path
  | none => .ok default

/-- The tree with the settings written to a file. -/
def save (s : Settings) (t : FileTree) (path : Text) (modified : Int) :
    Except FileError FileTree :=
  t.writeFile path s.toText modified

end PackageCycles.Settings

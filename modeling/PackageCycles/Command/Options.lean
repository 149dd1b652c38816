import PackageCycles.Command.Flag
import PackageCycles.Settings.File
import PackageCycles.Settings.Variables

/-!
# Options of the commands

The commands that analyse a project share some options. Together with the settings file and the
environment they give the settings: a flag that was given wins over the variable, the variable over
the file, and the file over the default (`CommonOptions.resolve`).
-/

namespace PackageCycles

/-- The options that commands share. -/
structure CommonOptions where
  /-- The directory of the project. -/
  directory : Text
  /-- The settings file, or the empty text for the one in the directory. -/
  settingsFile : Text
  /-- The greatest number of packages on a cycle. -/
  maxDepth : Int
  /-- The patterns of packages that are left out. -/
  excludes : List Text
  /-- Cycles make a check fail. -/
  failOnError : Bool
  /-- The name of the traversal. -/
  traversal : Text
  /-- More is logged. -/
  verbose : Bool
  deriving DecidableEq

namespace CommonOptions

/-- The options where no flag is given. -/
def default : CommonOptions := ⟨".", [], 0, [], true, [], false⟩

/-- The flags of the shared options in a record of options. -/
def flags {σ : Type} (within : (CommonOptions → CommonOptions) → σ → σ) : List (Flag σ) :=
  [⟨"dir", "Project base directory",
      .text "." fun t => within fun o => { o with directory := t }⟩,
    ⟨"config", "Path to config file (default: pkgcycle.yaml in -dir)",
      .text "" fun t => within fun o => { o with settingsFile := t }⟩,
    ⟨"max-depth", "Maximum cycle length to search for",
      .int 0 fun n => within fun o => { o with maxDepth := n }⟩,
    ⟨"exclude", "Package pattern to exclude (repeatable)",
      .texts fun t => within fun o => { o with excludes := o.excludes ++ [t] }⟩,
    ⟨"fail-on-error", "Exit with code 1 when cycles are found",
      .bool true fun b => within fun o => { o with failOnError := b }⟩,
    ⟨"traversal", "Traversal mode: shared or per-root",
      .text "" fun t => within fun o => { o with traversal := t }⟩,
    ⟨"verbose", "Verbose output", .bool false fun b => within fun o => { o with verbose := b }⟩]

/-- Why settings cannot be found out. -/
inductive ResolveError where
  /-- The settings file cannot be loaded. -/
  | file (cause : Settings.LoadError)
  /-- A variable has a wrong value. -/
  | variable (cause : Settings.VariableError)
  deriving DecidableEq

/-- The wording of the error. -/
def ResolveError.message : ResolveError → Text
  | .file cause => ("failed to load config: " : Text) ++ cause.message
  | .variable cause => ("failed to load config: " : Text) ++ cause.message

/-- The settings of the settings file. -/
def fromFile (o : CommonOptions) (t : FileTree) : Except Settings.LoadError Settings :=
  if o.settingsFile = [] then Settings.loadFromDirectory t o.directory
  else Settings.load t o.settingsFile

/-- The settings with those overridden that flags were given for. -/
def override (o : CommonOptions) (given : List Text) (s : Settings) : Settings :=
  { s with
    maxDepth := if given.contains "max-depth" then o.maxDepth else s.maxDepth
    excludePatterns := if given.contains "exclude" then o.excludes else s.excludePatterns
    failOnError := if given.contains "fail-on-error" then o.failOnError else s.failOnError
    traversal := if given.contains "traversal" then o.traversal else s.traversal
    log := { s.log with level := if o.verbose then "debug" else s.log.level } }

/-- The settings that hold for a command. -/
def resolve (o : CommonOptions) (given : List Text) (t : FileTree) (env : Environment) :
    Except ResolveError Settings := do
  let s ← (o.fromFile t).mapError .file
  let s ← (s.withVariables env).mapError .variable
  return o.override given s

end CommonOptions

/-- The options of the check. -/
structure CheckOptions where
  /-- The shared options. -/
  common : CommonOptions
  /-- The name of the format of the report. -/
  format : Text
  /-- The file that metrics are written to, or the empty text. -/
  metricsFile : Text
  deriving DecidableEq

namespace CheckOptions

/-- The options where no flag is given. -/
def default : CheckOptions := ⟨.default, "text", []⟩

/-- The flags of the check. -/
def flags : FlagSet CheckOptions where
  command := "check"
  flags := CommonOptions.flags (fun f o => { o with common := f o.common }) ++
    [⟨"format", "Output format: text, json, github", .text "text" fun t o => { o with format := t }⟩,
      ⟨"metrics-file", "Write Prometheus metrics to this file",
        .text "" fun t o => { o with metricsFile := t }⟩]

end CheckOptions

/-- The options of the drawing of the graph. -/
structure GraphOptions where
  /-- The shared options. -/
  common : CommonOptions
  /-- The name of the format. -/
  format : Text
  /-- The package in focus, or the empty text for the whole graph. -/
  focus : Text
  /-- The name of the direction. -/
  direction : Text
  /-- Dependencies are followed further than one hop. -/
  transitive : Bool
  /-- How many hops they are followed. -/
  depth : Int
  deriving DecidableEq

namespace GraphOptions

/-- The options where no flag is given. -/
def default : GraphOptions := ⟨.default, "text", [], "dependencies", false, 0⟩

/-- The flags of the drawing. -/
def flags : FlagSet GraphOptions where
  command := "graph"
  flags := CommonOptions.flags (fun f o => { o with common := f o.common }) ++
    [⟨"format", "Output format: text, dot, cytoscape",
        .text "text" fun t o => { o with format := t }⟩,
      ⟨"package", "Only show this package and its neighbourhood",
        .text "" fun t o => { o with focus := t }⟩,
      ⟨"direction", "With -package: dependencies, dependents or both",
        .text "dependencies" fun t o => { o with direction := t }⟩,
      ⟨"transitive", "With -package: follow dependencies past the first hop",
        .bool false fun b o => { o with transitive := b }⟩,
      ⟨"depth", "With -transitive: maximum hops (0 = unlimited)",
        .int 0 fun n o => { o with depth := n }⟩]

end GraphOptions

/-- The options of the watch. -/
structure WatchOptions where
  /-- The shared options. -/
  common : CommonOptions
  /-- How long it has to be quiet before a check. -/
  delay : Duration
  deriving DecidableEq

namespace WatchOptions

/-- How long it has to be quiet unless another time is asked for. -/
def defaultDelay : Duration := .seconds 2

/-- The options where no flag is given. -/
def default : WatchOptions := ⟨.default, defaultDelay⟩

/-- The flags of the watch. -/
def flags : FlagSet WatchOptions where
  command := "watch"
  flags := CommonOptions.flags (fun f o => { o with common := f o.common }) ++
    [⟨"delay", "Quiet period after a change before re-checking",
        .duration defaultDelay fun d o => { o with delay := d }⟩]

end WatchOptions

/-- The flags of the list of rules. -/
def rulesFlags : FlagSet CommonOptions := ⟨"rules", CommonOptions.flags id⟩

/-- The flags of the version. -/
def versionFlags : FlagSet Unit := ⟨"version", []⟩

end PackageCycles

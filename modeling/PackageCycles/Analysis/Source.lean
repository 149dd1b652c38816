import PackageCycles.Event
import PackageCycles.Import.Extract
import PackageCycles.Scan

/-!
# Where the graph comes from

A source loads the graph of a source directory. The source of files scans the directory, reads the
imports of each compilation unit and builds the graph from those that have a package and could be
read. Every compilation unit is counted once: it is skipped, it cannot be read, or it contributes.
-/

namespace PackageCycles

/-- How long the parts of an analysis take. -/
structure Timing where
  /-- Looking for the compilation units. -/
  scan : Duration
  /-- Reading their imports. -/
  extract : Duration
  /-- Building the graph. -/
  build : Duration
  /-- Looking for cycles. -/
  detect : Duration
  /-- The whole analysis. -/
  total : Duration
  deriving DecidableEq

/-- Nothing takes any time. -/
def Timing.none : Timing := ⟨.zero, .zero, .zero, .zero, .zero⟩

/-- The numbers of compilation units. -/
structure FileCounts where
  /-- Those found. -/
  scanned : Nat
  /-- Those of no package or an excluded one. -/
  skipped : Nat
  /-- Those that could not be read, and the entries that could not be looked at. -/
  failures : Nat
  deriving DecidableEq

/-- A graph with the numbers of the files that it was built from. -/
structure LoadedGraph where
  /-- The graph. -/
  graph : Graph
  /-- The numbers of files. -/
  counts : FileCounts

/-- Why a graph cannot be loaded. -/
inductive SourceError where
  /-- The source directory cannot be scanned. -/
  | scan (cause : ScanError)
  /-- Something else, in its own words. -/
  | other (message : Text)
  deriving DecidableEq

namespace SourceError

/-- The wording of the error. -/
def message : SourceError → Text
  | .scan cause => cause.message
  | .other message => message

/-- The source directory does not exist. -/
def isMissing : SourceError → Bool
  | .scan (.missing _) => true
  | _ => false

end SourceError

/-- The outcome of loading a graph. -/
structure Loading where
  /-- The graph, or why there is none. -/
  result : Except SourceError LoadedGraph
  /-- The import cache afterwards. -/
  cache : Option Import.Cache
  /-- What happened. -/
  events : List Event

/-- Where graphs are loaded from. -/
structure Source where
  /-- Loads the graph of a source directory. -/
  load (t : FileTree) (cache : Option Import.Cache) (timing : Timing) (root : Text) : Loading

namespace Import

/-- The imports of compilation units one after the other, the cache afterwards and the look-ups made
for each. -/
def Extractor.extractAll {σ : Type} [Store σ CacheEntry] (x : Extractor) (t : FileTree)
    (cache : Option (CacheOver σ)) :
    List Text → List (FileImports × List Bool) × Option (CacheOver σ)
  | [] => ([], cache)
  | path :: rest =>
    let (file, cache, lookups) := x.extract t cache path
    let (files, cache) := x.extractAll t cache rest
    ((file, lookups) :: files, cache)

namespace FileImports

/-- The compilation unit could not be read. -/
def failed (f : FileImports) : Bool := f.error.isSome

/-- The dependencies that the compilation unit contributes to the graph. -/
def dependencies? (f : FileImports) : Option FileDependencies :=
  if f.failed || f.skipped then none else some ⟨f.package, f.imports⟩

/-- What happened when the compilation unit was read. -/
def events (f : FileImports) (lookups : List Bool) : List Event :=
  lookups.map Event.lookup ++
    match f.error with
    | some cause =>
      [.logged ((Log.entry .debug (("Failed to read source file: " : Text) ++ f.path)).withError
        cause.message)]
    | none => []

end FileImports

end Import

namespace Span

/-- The span of a whole analysis. -/
def analysis : Text := "pkgcycle.analyze"

/-- A part of an analysis, with numbers about it. -/
def part (name : Text) (attributes : List (Text × Nat)) : Span where
  name := ("pkgcycle." : Text) ++ name
  parent := some analysis
  attributes := attributes.map fun (key, n) => (("pkgcycle." : Text) ++ key, .int n)
  failure := none

end Span

namespace Source

/-- What happened when an entry was skipped by the scan. -/
def skipEvent (skipped : Text × FileError) : Event :=
  .logged ((Log.entry .debug (("Skipping unreadable entry: " : Text) ++ skipped.1)).withError
    skipped.2.message)

/-- What happened by the end of the scan. -/
def scanEvents (timing : Timing) (skipped : List (Text × FileError)) (files : Nat) : List Event :=
  skipped.map skipEvent ++
    [.phase "scan" timing.scan, .span (.part "scan" [("files", files)])]

/-- The numbers of the compilation units that were read after a scan. -/
def countFiles (scan : Scan) (files : List Import.FileImports) : FileCounts where
  scanned := files.length
  skipped := files.countP fun f => !f.failed && f.skipped
  failures := scan.skipped.length + files.countP (·.failed)

/-- What happened by the end of the extraction. -/
def extractEvents (timing : Timing) (counts : FileCounts)
    (files : List (Import.FileImports × List Bool)) : List Event :=
  files.flatMap (fun (file, lookups) => file.events lookups) ++
    [.phase "extract" timing.extract,
      .span (.part "extract" [("files_skipped", counts.skipped), ("read_failures", counts.failures)])]

/-- What happened when the graph was built. -/
def buildEvents (timing : Timing) (graph : Graph) : List Event :=
  [.phase "build" timing.build,
    .span (.part "build" [("packages", graph.packageCount), ("edges", graph.edgeCount)])]

/-- The graph of the imports in the compilation units with the given suffix, without the packages
that are left out. -/
def ofFiles (suffix : Text) (excluded : Package → Bool) : Source where
  load t cache timing root :=
    match scan t suffix root with
    | .error cause => ⟨.error (.scan cause), cache, scanEvents timing [] 0⟩
    | .ok scan =>
      let extractor : Import.Extractor := ⟨root, excluded⟩
      let (read, cache) := extractor.extractAll t cache scan.files
      let files := read.map (·.1)
      let counts := countFiles scan files
      let graph := Graph.build (files.filterMap (·.dependencies?))
      { result := .ok ⟨graph, counts⟩
        cache := cache
        events := scanEvents timing scan.skipped scan.files.length ++
          extractEvents timing counts read ++ buildEvents timing graph }

end Source

end PackageCycles

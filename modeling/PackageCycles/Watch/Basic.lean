import PackageCycles.Lint.CycleRule
import PackageCycles.Lint.Enforcement
import PackageCycles.Session
import PackageCycles.Shutdown
import PackageCycles.Watch.Change

/-!
# Watching a project

A watch checks a project once and then again after each burst of changes. Between checks it keeps
the imports that it has read. A change that is reported drops what was kept of its file, unless the
file was only created, and asks for a check, which is due once it has been quiet for a while.
-/

namespace PackageCycles

/-- Why a project cannot be watched. -/
inductive WatchError where
  /-- There is no source directory. -/
  | noSourceDirectory (path : Text)
  /-- The log has no form. -/
  | logFormat (cause : Log.Format.Unknown)
  /-- A directory cannot be watched. -/
  | unwatchable (root : Text) (fault : Fault)
  deriving DecidableEq

/-- The wording of the error. -/
def WatchError.message : WatchError → Text
  | .noSourceDirectory path => ("source directory not found: " : Text) ++ path
  | .logFormat cause => cause.message
  | .unwatchable root fault => ("failed to watch " : Text) ++ root ++ ": " ++ fault.message

mutual

/-- The directories at and below a node can be watched: each of them can be listed, and gone through
if there is another one in it. -/
def Node.isWatchable : Node → Bool
  | .directory entries access => access.listable && Node.areWatchable access.searchable entries
  | _ => true

/-- The directories at and below the entries of a directory can be watched; `searchable` says
whether the directory can be gone through. -/
def Node.areWatchable (searchable : Bool) : List (Text × Node) → Bool
  | [] => true
  | (_, node) :: rest =>
    (searchable || !node.isDirectory) && node.isWatchable && Node.areWatchable searchable rest

end

/-- A project that is being watched. -/
structure Watch where
  /-- The session. -/
  session : Session
  /-- The directory of the project. -/
  directory : Text
  /-- The files. -/
  tree : FileTree
  /-- The imports that are kept. -/
  cache : Import.Cache
  /-- What has been counted. -/
  metrics : Metrics
  /-- A check is due. -/
  due : Bool

namespace Watch

/-- The settings of the watch. -/
def settings (w : Watch) : Settings := w.session.settings

/-- The source directory. -/
def sourceDirectory (w : Watch) : Text := w.settings.sourceDirectory w.directory

/-- What is put away at the end. -/
def shutdown : Shutdown :=
  (Shutdown.empty.register (.mk "session" none [])).register (.mk "watcher" none [])

/-- What a watch shows: the log, the report and the files that it writes. -/
structure Shown where
  /-- The log. -/
  log : List Log.Entry
  /-- The report of a check. -/
  report : Option Report
  /-- The paths that were written, with the content. -/
  written : List (Text × Text)

/-- Nothing is shown. -/
def Shown.nothing : Shown := ⟨[], none, []⟩

/-- The entry about a check that failed otherwise than by its violations. -/
def failure? : Option EnforcementError → List Log.Entry
  | some (e@(.rule ..)) => [(Log.entry .error "Check failed").withError e.message]
  | _ => []

/-- The rules enforced on the project as it is. -/
def enforcement (w : Watch) (run : Run) : Enforcement :=
  let project : Project := ⟨w.settings.projectName, w.directory⟩
  (Registry.empty.register (.noCycles w.settings)).enforce ⟨w.tree, some w.cache, run⟩ project

/-- Checks the project. -/
def check (w : Watch) (world : World) : Watch × Shown :=
  let e := w.enforcement (w.session.run world)
  let metrics := w.metrics.after e.events
  let written := w.session.writeMetrics { world with tree := w.tree } metrics
  ({ w with tree := written.tree, cache := e.cache.getD w.cache, metrics := metrics, due := false },
    ⟨logOf e.events ++ e.log ++ written.log ++ failure? e.error, e.reports.head?, written.files⟩)

/-- What can happen during a watch. -/
inductive Input where
  /-- The files are now these. -/
  | files (tree : FileTree)
  /-- A change is reported. -/
  | change (c : Change)
  /-- It has been quiet for a while. -/
  | quiet

/-- Takes note of a change. -/
def note (w : Watch) (c : Change) : Watch :=
  if c.isRelevant w.settings.fileSuffix then
    { w with
      cache := if c.isOfContent then w.cache.erase c.path else w.cache
      due := true }
  else w

/-- What a path names can be watched with all directories in it. A link is not followed. -/
def isWatchable (t : FileTree) (path : Text) : Bool :=
  match t.statLink path with
  | .ok node => node.isWatchable
  | .error _ => false

/-- What is logged about a change: the change, and a directory that came with it and cannot be
watched. -/
def changeLog (w : Watch) (c : Change) : List Log.Entry :=
  let change := Log.entry .debug (("Changed: " : Text) ++ c.path ++ " (" ++ c.kindNames ++ ")")
  let unwatchable :=
    match w.tree.stat c.path with
    | .ok (.directory ..) => c.kinds.contains .create && !isWatchable w.tree c.path
    | _ => false
  let warning := (Log.entry .warning (("Failed to watch new directory " : Text) ++ c.path)).withError
    Fault.denied.message
  if !c.isRelevant w.settings.fileSuffix then []
  else if unwatchable then [change, warning]
  else [change]

/-- One step of the watch. -/
def step (w : Watch) (world : World) : Input → Watch × Shown
  | .files tree => ({ w with tree := tree }, Shown.nothing)
  | .change c => (w.note c, ⟨w.changeLog c, none, []⟩)
  | .quiet => if w.due then w.check world else (w, Shown.nothing)

/-- Starts to watch a project, up to the first check. The log is there even if the watch cannot be
started. -/
def start (s : Settings) (directory : Text) (tree : FileTree) :
    Except WatchError (Session × List Log.Entry × Except WatchError Watch) := do
  let root := s.sourceDirectory directory
  match tree.stat root with
  | .ok (.directory ..) => pure ()
  | _ => throw (.noSourceDirectory root)
  let session ← (Session.start s).mapError .logFormat
  if isWatchable tree root then
    let watch : Watch := ⟨session, directory, tree, .new 0, .empty, false⟩
    let announcement := Log.entry .info (("Watching " : Text) ++ root ++ " for changes")
    return (session, session.startLog ++ [announcement], .ok watch)
  else
    return (session, session.startLog ++ session.stopLog ++ shutdown.run.1.log,
      .error (.unwatchable root .denied))

/-- What is logged at the end. -/
def stopLog (w : Watch) : List Log.Entry :=
  Log.entry .info "Stopping watch" :: (w.session.stopLog ++ shutdown.run.1.log)

end Watch

end PackageCycles

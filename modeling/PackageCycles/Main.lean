import PackageCycles.Command.Program
import PackageCycles.Dotenv
import PackageCycles.Log.Time
import PackageCycles.Watch.Poll
import Std.Time.DateTime.Timestamp

/-!
# The command line

Everything that the program decides is decided by `Program.execute` and `Watch.step`. Here files and
variables are read into values, what is printed and written goes to where it belongs, and a watch
looks at the files again from time to time.
-/

namespace PackageCycles.Main

/-! ## Reading -/

/-- When a file was last modified, in nanoseconds. -/
def modifiedAt (info : IO.FS.Metadata) : Int :=
  info.modified.sec * 1000000000 + info.modified.nsec.toNat

/-- What is at a path, with what is in its directories if they are asked for. What cannot be opened
is closed in the tree too. -/
partial def load (deep : Bool) (path : String) : IO Node := do
  let file := (← IO.currentDir) / path
  let info ← file.symlinkMetadata
  match info.type with
  | .dir =>
    try
      let mut entries : List (Text × Node) := []
      for entry in ← file.readDir do
        if deep || !(← entry.path.isDir) then
          let node ← load deep s!"{path}/{entry.fileName}"
          entries := Node.setEntry (Text.ofString entry.fileName) node entries
      return .directory entries .full
    catch _ => return .directory [] .none
  | .symlink =>
    try
      return .link (Text.ofString (← IO.FS.realPath file).toString)
    catch _ => return .link (Text.ofString "missing")
  | .other => return .special
  | .file =>
    try
      return .file (← IO.FS.readBinFile file).toList (modifiedAt info) true
    catch _ => return .file [] (modifiedAt info) false

/-- The names that lead from the root to a path. -/
def namesOf (path : String) : List Text :=
  ((path.splitOn "/").filter (· ≠ "")).map Text.ofString

/-- The path that an argument names, if something is there. -/
def pathOf? (argument : String) : IO (Option String) := do
  let path := ((argument.splitOn "=").getLast?).getD argument
  try
    let real ← IO.FS.realPath path
    if path ≠ "" && (← real.pathExists) then return some real.toString else return none
  catch _ => return none

/-- The files in the working directory and what arguments name. Unless they name a directory, all
directories in the working directory belong to it. -/
def loadTree (arguments : List String) : IO FileTree := do
  let here := (← IO.currentDir).toString
  let paths ← arguments.filterMapM pathOf?
  let named ← paths.anyM fun (path : String) => do return (← (← IO.FS.realPath path).isDir)
  let tree : FileTree :=
    ⟨Node.put (← load (!named) here) (namesOf here) .emptyDirectory, namesOf here⟩
  paths.foldlM (fun t path => do
    return { t with root := Node.put (← load true path) (namesOf path) t.root }) tree

/-- The variables that settings are taken from. -/
def loadEnvironment : IO Environment := do
  let bindings ← Settings.variableNames.filterMapM fun name => do
    return (← IO.getEnv name).map fun value => (Text.ofString name, Text.ofString value)
  return ⟨bindings⟩

/-- As many random bytes in hexadecimal. -/
def randomHex (bytes : USize) : IO Text := do
  return (← IO.getRandomBytes bytes).toList.flatMap fun b => Text.hex 2 b.toNat

/-- A name for a run that no other one has. -/
def randomId : IO Text := do
  return Text.join (Text.ofString "-")
    [← randomHex 4, ← randomHex 2, ← randomHex 2, ← randomHex 2, ← randomHex 6]

/-- The world around a command. -/
def worldAround (tree : FileTree) : IO World := do
  let seconds : Int := (← Std.Time.Timestamp.now).toSecondsSinceUnixEpoch.val
  return {
    tree := tree
    run := ⟨← randomId, .none, some ⟨← randomHex 16, ← randomHex 8⟩⟩
    time := Log.timeOf seconds
    now := seconds * 1000000000
    digits := Text.ofNat (← IO.rand 0 4294967295) }

/-! ## Writing -/

/-- Prints text to the first stream and to the second one. -/
def print (out err : Text) : IO Unit := do
  (← IO.getStderr).write ⟨err.toArray⟩
  (← IO.getStdout).write ⟨out.toArray⟩
  (← IO.getStdout).flush

/-- A text as a string. -/
def stringOf (t : Text) : String := String.ofList t.toChars

/-- Writes files. -/
def writeFiles (files : List (Text × Text)) : IO Unit := do
  for (path, content) in files do
    IO.FS.writeBinFile (stringOf path) ⟨content.toArray⟩

/-- Prints the reason of a failure. -/
def complain (message : Text) : IO Unit :=
  print [] (Text.ofString "Error: " ++ message ++ Text.ofString "\n")

/-! ## Running -/

/-- How long the files are left alone between two looks, in milliseconds. -/
def pause : UInt32 := 200

/-- Shows what a step of a watch gives. -/
def showStep (next : Watch × Watch.Shown) (world : World) : IO Watch := do
  let (watch, shown) := next
  let report := (shown.report.map fun r => r.toText watch.settings.failOnError).getD []
  print report (watch.session.lines world shown.log)
  writeFiles shown.written
  return watch

/-- Watches a project for ever. `changed` is when the latest change was seen, in milliseconds. -/
partial def watchOn (arguments : List String) (delay : Duration) (watch : Watch) (changed : Nat) :
    IO Unit := do
  IO.sleep pause
  let tree ← loadTree arguments
  let world ← worldAround tree
  let changes := watch.changesTo tree
  let now ← IO.monoMsNow
  let mut watch := (watch.step world (.files tree)).1
  for change in changes do
    watch ← showStep (watch.step world (.change change)) world
  let changed := if changes.isEmpty then changed else now
  if delay.nanoseconds ≤ (now - changed : Nat) * 1000000 then
    watch ← showStep (watch.step world .quiet) world
  watchOn arguments delay watch changed

/-- Carries out the command that arguments name. -/
def run (arguments : List String) : IO UInt32 := do
  let tree ← loadTree arguments
  let (env, failed) := Dotenv.load tree (← loadEnvironment) [Dotenv.defaultPath]
  if let some e := failed then
    complain e.message
    return 2
  let world ← worldAround tree
  let (_, done) := Program.initial.execute world env (arguments.map Text.ofString)
  print done.out done.err
  writeFiles done.written
  if let some (watch, delay) := done.watch then
    watchOn arguments delay watch (← IO.monoMsNow)
  if let some e := done.error then
    if e.exitCode ≠ 1 then complain e.message
  return done.exitCode.toUInt32

end PackageCycles.Main

/-- Checks the packages of a project for cyclic dependencies. -/
def main (arguments : List String) : IO UInt32 := PackageCycles.Main.run arguments

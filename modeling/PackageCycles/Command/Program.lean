import PackageCycles.Command.Check
import PackageCycles.Command.Draw
import PackageCycles.Text.Case

/-!
# The program

The first argument names a command and the others are its own. A program remembers what flags have
set, so a flag that was given to a command holds for the next run of this command too.
-/

namespace PackageCycles

namespace Watch

/-- Starts to watch a project as options ask, with the first check. -/
def command (w : World) (env : Environment) (given : Given WatchOptions) : Completion :=
  let o := given.options
  match o.common.resolve given.names w.tree env with
  | .error cause => .failed w.tree (.resolve cause)
  | .ok s =>
    match start s o.common.directory w.tree with
    | .error cause => .failed w.tree (.watch cause)
    | .ok (session, log, .error cause) =>
      { Completion.failed w.tree (.watch cause) with err := session.lines w log }
    | .ok (session, log, .ok watch) =>
      let (watch, shown) := watch.check w
      { tree := watch.tree
        written := shown.written
        out := ((shown.report.map fun r => r.toText s.failOnError)).getD []
        err := session.lines w (log ++ shown.log)
        error := none
        watch := some (watch, o.delay) }

end Watch

/-- The version of the program. -/
def version : Text := "dev"

/-- The lines about a rule. -/
def Rule.describe (r : Rule) : Text :=
  ("  - " : Text) ++ Text.padRight 30 r.name ++ " [" ++ r.severity.name ++ "]\n    " ++
    r.description ++ "\n    cache id: " ++ r.cacheId ++ "\n"

/-- The list of rules. -/
def listRules (rules : List Rule) : Text :=
  ("Available rules (" : Text) ++ Text.ofNat rules.length ++ "):\n\n" ++ rules.flatMap Rule.describe

/-- Lists the rules as options ask. -/
def rulesCommand (w : World) (env : Environment) (given : Given CommonOptions) : Completion :=
  match given.options.resolve given.names w.tree env with
  | .error cause => .failed w.tree (.resolve cause)
  | .ok s => .printed w.tree (listRules ((Rule.defaults s).foldl .register Registry.empty).rules)

/-- Prints the version. -/
def versionCommand (w : World) : Completion :=
  .printed w.tree (("pkgcycle " : Text) ++ version ++ "\n")

/-- What flags have set so far, for each command. -/
structure Program where
  /-- The check. -/
  check : Given CheckOptions
  /-- The drawing of the graph. -/
  graph : Given GraphOptions
  /-- The watch. -/
  watch : Given WatchOptions
  /-- The list of rules. -/
  rules : Given CommonOptions
  /-- The version. -/
  version : Given Unit

namespace Program

/-- No flag has been given. -/
def initial : Program :=
  ⟨⟨.default, []⟩, ⟨.default, []⟩, ⟨.default, []⟩, ⟨.default, []⟩, ⟨(), []⟩⟩

/-- The commands with what they do, in the order of their names. -/
def commands : List (Text × Text) :=
  [("check", "Check the project for cyclic package dependencies"),
   ("graph", "Print the filtered package dependency graph"),
   ("rules", "List available rules"),
   ("version", "Print the version"),
   ("watch", "Re-run the check whenever sources change")]

/-- The line about a command. -/
def describe (command : Text × Text) : Text :=
  ("  " : Text) ++ Text.padRight 15 command.1 ++ " " ++ command.2 ++ "\n"

/-- What is printed about the program. -/
def usage : Text :=
  ("Usage: pkgcycle <command> [args]\n\nCommands:\n" : Text) ++ commands.flatMap describe

/-- Reads the arguments of a command and carries it out. -/
def withFlags {σ : Type} (flags : FlagSet σ) (given : Given σ) (w : World) (arguments : List Text)
    (act : Given σ → Completion) : Given σ × Completion :=
  match flags.parse given arguments with
  | (given, none) => (given, act given)
  | (given, some e) =>
    (given, { Completion.failed w.tree (.flag e) with err := flags.complaint e })

/-- The argument asks for help. -/
def asksForHelp (argument : Text) : Bool :=
  let word := argument.lowerWord
  word = "-h" || word = "--help" || word = "help"

/-- Carries out the command that arguments name. -/
def execute (p : Program) (w : World) (env : Environment) (arguments : List Text) :
    Program × Completion :=
  match arguments with
  | [] => (p, .printed w.tree usage)
  | name :: rest =>
    if asksForHelp name then (p, .printed w.tree usage)
    else if name = "check" then
      let (given, c) := withFlags CheckOptions.flags p.check w rest (Check.command w env)
      ({ p with check := given }, c)
    else if name = "graph" then
      let (given, c) := withFlags GraphOptions.flags p.graph w rest (Draw.command w env)
      ({ p with graph := given }, c)
    else if name = "watch" then
      let (given, c) := withFlags WatchOptions.flags p.watch w rest (Watch.command w env)
      ({ p with watch := given }, c)
    else if name = "rules" then
      let (given, c) := withFlags rulesFlags p.rules w rest (rulesCommand w env)
      ({ p with rules := given }, c)
    else if name = "version" then
      let (given, c) := withFlags versionFlags p.version w rest fun _ => versionCommand w
      ({ p with version := given }, c)
    else (p, .failed w.tree (.unknownCommand name))

end Program

end PackageCycles

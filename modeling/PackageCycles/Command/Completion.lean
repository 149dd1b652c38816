import PackageCycles.Command.Options
import PackageCycles.Lint.Enforcement
import PackageCycles.View.Basic
import PackageCycles.Watch.Basic

/-!
# How a command ends

A command prints to two streams and ends well, with violations or with a failure. The exit code tells
which: 0, 1 or 2. Both streams take what is printed. A stream that refuses it, as a closed pipe or a
full disk does, makes some commands fail; this is not modelled, so printing cannot fail here.
-/

namespace PackageCycles

/-- Why a command does not end well. -/
inductive CommandError where
  /-- There is no such command. -/
  | unknownCommand (name : Text)
  /-- The arguments cannot be read. -/
  | flag (cause : FlagError)
  /-- There is no such format of a report. -/
  | reportFormat (name : Text)
  /-- There is no such format of a drawing. -/
  | drawingFormat (name : Text)
  /-- There is no such direction. -/
  | direction (cause : Direction.Unknown)
  /-- The settings cannot be found out. -/
  | resolve (cause : CommonOptions.ResolveError)
  /-- The log has no form. -/
  | logFormat (cause : Log.Format.Unknown)
  /-- The settings cannot be analysed with. -/
  | settings (cause : SettingsError)
  /-- The analysis failed. -/
  | analysis (cause : AnalysisError)
  /-- Rules are violated or could not be checked. -/
  | enforcement (cause : EnforcementError)
  /-- The project cannot be watched. -/
  | watch (cause : WatchError)

namespace CommandError

/-- The wording of the error. -/
def message : CommandError → Text
  | .unknownCommand name => ("unknown command: " : Text) ++ name
  | .flag cause => cause.message
  | .reportFormat name =>
    ("unknown format " : Text) ++ name.quoted ++ " (must be text, json or github)"
  | .drawingFormat name =>
    ("unknown format " : Text) ++ name.quoted ++ " (must be text, dot or cytoscape)"
  | .direction cause => cause.message
  | .resolve cause => cause.message
  | .logFormat cause => cause.message
  | .settings cause => cause.message
  | .analysis cause => cause.message
  | .enforcement cause => cause.message
  | .watch cause => cause.message

/-- The exit code: violations are told from failures. -/
def exitCode : CommandError → Nat
  | .enforcement (.violations _) => 1
  | _ => 2

end CommandError

/-- How a command ended. -/
structure Completion where
  /-- The files afterwards. -/
  tree : FileTree
  /-- The paths that were written, with the content. -/
  written : List (Text × Text)
  /-- What was printed. -/
  out : Text
  /-- What was logged, and complaints about arguments. -/
  err : Text
  /-- Why it did not end well. -/
  error : Option CommandError
  /-- The watch that goes on from here, with the time that it has to be quiet before a check. -/
  watch : Option (Watch × Duration)

namespace Completion

/-- The command printed something and ended well. -/
def printed (t : FileTree) (out : Text) : Completion := ⟨t, [], out, [], none, none⟩

/-- The command failed before it printed anything. -/
def failed (t : FileTree) (error : CommandError) : Completion := ⟨t, [], [], [], some error, none⟩

/-- The exit code. -/
def exitCode (c : Completion) : Nat := (c.error.map CommandError.exitCode).getD 0

end Completion

end PackageCycles

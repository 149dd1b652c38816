import PackageCycles.Log.Entry

/-!
# Orderly shutdown

Things that were set up have to be put away at the end, the latest first. A task that fails does not
keep the others from running, and a task may itself bring up further ones, which are left for the
next shutdown.
-/

namespace PackageCycles

/-- Something to be done at shutdown. -/
inductive CleanupTask where
  /-- A task with its name, the error that it fails with, if any, and the tasks that it registers
  when it runs. -/
  | mk (name : Text) (error : Option Text) (registers : List CleanupTask)

namespace CleanupTask

/-- The name of the task. -/
def name : CleanupTask → Text
  | mk name _ _ => name

/-- What the task fails with, if it does. -/
def error : CleanupTask → Option Text
  | mk _ error _ => error

/-- The tasks that the task registers when it runs. -/
def registers : CleanupTask → List CleanupTask
  | mk _ _ registers => registers

end CleanupTask

/-- The tasks that wait for a shutdown, in the order in which they were registered. -/
structure Shutdown where
  /-- The tasks. -/
  tasks : List CleanupTask

/-- What happened at a shutdown. -/
structure Shutdown.Result where
  /-- The tasks that were run, in this order. -/
  ran : List CleanupTask
  /-- What was logged. -/
  log : List Log.Entry
  /-- The number of tasks that failed. -/
  failures : Nat

namespace Shutdown

/-- No tasks wait. -/
def empty : Shutdown := ⟨[]⟩

/-- One more task waits. -/
def register (s : Shutdown) (task : CleanupTask) : Shutdown := ⟨s.tasks ++ [task]⟩

/-- The entry about a task that failed. Tasks are numbered in the order of their registration. -/
def failure? (number : Nat) (task : CleanupTask) : Option Log.Entry :=
  task.error.map fun error =>
    (Log.entry .error (("Shutdown function " : Text) ++ Text.ofNat number ++ " failed")).withError
      error

/-- Runs all tasks that wait, the latest first. The tasks that they register are left to wait. -/
def run (s : Shutdown) : Result × Shutdown :=
  let ran := s.tasks.reverse
  let failed := (s.tasks.zipIdx.reverse).filterMap fun (task, number) => failure? number task
  let log := if failed.isEmpty then [Log.entry .debug "Shutdown complete"] else failed
  (⟨ran, log, failed.length⟩, ⟨ran.flatMap (·.registers)⟩)

/-- The shutdown succeeded. -/
def Result.succeeded (r : Result) : Bool := r.failures = 0

/-- What is said of a shutdown at which tasks failed. -/
def Result.message (r : Result) : Text :=
  ("shutdown completed with " : Text) ++ Text.ofNat r.failures ++ " errors"

end Shutdown

end PackageCycles

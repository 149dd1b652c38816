import PackageCycles.Text.Case

/-!
# Levels of a log

How severe an entry of a log is. A log set to a level keeps the entries that are at least as severe.
-/

namespace PackageCycles.Log

/-- The levels, the most severe first. -/
inductive Level where
  | panic
  | fatal
  | error
  | warning
  | info
  | debug
  | trace
  deriving DecidableEq

namespace Level

/-- The number of levels that are more severe. -/
def rank : Level → Nat
  | .panic => 0
  | .fatal => 1
  | .error => 2
  | .warning => 3
  | .info => 4
  | .debug => 5
  | .trace => 6

/-- The name of a level. -/
def name : Level → Text
  | .panic => "panic"
  | .fatal => "fatal"
  | .error => "error"
  | .warning => "warning"
  | .info => "info"
  | .debug => "debug"
  | .trace => "trace"

/-- The level with a name, in any case. What names no level stands for `info`. -/
def ofName (name : Text) : Level :=
  let word := name.lowerWord
  if word = "panic" then .panic
  else if word = "fatal" then .fatal
  else if word = "error" then .error
  else if word = "warn" ∨ word = "warning" then .warning
  else if word = "debug" then .debug
  else if word = "trace" then .trace
  else .info

/-- A log set to this level keeps entries of the other one. -/
def keeps (set other : Level) : Bool := other.rank ≤ set.rank

end Level

end PackageCycles.Log

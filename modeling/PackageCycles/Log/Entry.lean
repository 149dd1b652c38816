import PackageCycles.Duration
import PackageCycles.Log.Level

/-!
# Entries of a log

An entry has a level, a message and fields. A program here does not write to a log as it goes along:
it gives the entries in the order in which they arise, and who receives them keeps those that are
severe enough.
-/

namespace PackageCycles.Log

/-- The value of a field. -/
inductive Value where
  | null
  | bool (b : Bool)
  | int (n : Int)
  | text (t : Text)
  | duration (d : Duration)
  deriving DecidableEq

/-- Names with values. -/
abbrev Fields := List (Text × Value)

/-- What is reported at one moment. -/
structure Entry where
  /-- How severe it is. -/
  level : Level
  /-- What is said. -/
  message : Text
  /-- What is added to the message. A field named again has the later value. -/
  fields : Fields
  deriving DecidableEq

namespace Entry

/-- The entry with fields added. -/
def withFields (e : Entry) (fields : Fields) : Entry :=
  { e with fields := e.fields ++ fields }

/-- The entry about an error. -/
def withError (e : Entry) (error : Text) : Entry := e.withFields [("error", .text error)]

end Entry

/-- An entry without fields. -/
def entry (level : Level) (message : Text) : Entry := ⟨level, message, []⟩

/-- The entries that a log set to a level keeps. -/
def keep (level : Level) (entries : List Entry) : List Entry :=
  entries.filter fun e => level.keeps e.level

end PackageCycles.Log

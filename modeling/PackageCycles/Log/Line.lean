import PackageCycles.Json
import PackageCycles.Log.Entry
import PackageCycles.Ordered

/-!
# Lines of a log

An entry is written on one line, as words `key=value` or as a JSON object. In both the fields come
in the order of their names; a field whose name is taken by the line itself gets `fields.` in front.
-/

namespace PackageCycles.Log

/-- How lines are written. -/
inductive Format where
  | text
  | json
  deriving DecidableEq

/-- A name that is no format. -/
structure Format.Unknown where
  /-- The name. -/
  name : Text
  deriving DecidableEq

namespace Format

/-- The format with a name, in any case. The empty name stands for text. -/
def parse (name : Text) : Except Unknown Format :=
  let word := name.lowerWord
  if word = "" ∨ word = "text" then .ok .text
  else if word = "json" then .ok .json
  else .error ⟨name⟩

/-- The format with a name; what names none stands for text. -/
def ofName (name : Text) : Format :=
  match parse name with
  | .ok format => format
  | .error _ => .text

/-- What is said of a name that is no format. -/
def Unknown.message (e : Unknown) : Text :=
  ("unknown log format " : Text) ++ e.name.quoted ++ " (must be text or json)"

end Format

/-- The keys that a line keeps for itself: those of its own words, and the one under which a fault
of the log would be written. -/
def reservedKeys : List Text := ["time", "level", "msg", "logrus_error"]

/-- The key under which a field is written. -/
def shownKey (key : Text) : Text :=
  if reservedKeys.contains key then ("fields." : Text) ++ key else key

/-- The fields as they are written: ordered by their keys, the latest value of each, those with a
key that is taken last. -/
def Entry.shownFields (e : Entry) : List (Text × Value) :=
  let latest := e.fields.foldl (fun fields (key, value) => Ordered.assign key value fields) []
  let (kept, renamed) := latest.partition fun (key, _) => shownKey key = key
  renamed.foldl (fun fields (key, value) => Ordered.assign (shownKey key) value fields) kept

/-- A value as text. -/
def Value.toText : Value → Text
  | .null => "<nil>"
  | .bool b => Text.ofBool b
  | .int n => Text.ofInt n
  | .text t => t
  | .duration d => d.toText

/-- A value as JSON. A duration is the number of its nanoseconds. -/
def Value.toJson : Value → Json
  | .null => .null
  | .bool b => .bool b
  | .int n => .int n
  | .text t => .text t
  | .duration d => .int d.nanoseconds

/-- A byte that can stand in a word without quotes. -/
def isWordByte (b : UInt8) : Bool :=
  let c := Char.ofNat b.toNat
  b < 128 && (c.isAlphanum || ['-', '.', '_', '/', '@', '^', '+'].contains c)

/-- A word of a line, in quotes if it is empty or holds anything unusual. -/
def word (t : Text) : Text := if t ≠ [] ∧ t.all isWordByte then t else t.quoted

/-- The entry as words. -/
def Entry.toText (e : Entry) (time : Text) : Text :=
  let message := if e.message = [] then [] else [("msg" : Text) ++ "=" ++ word e.message]
  let fields := e.shownFields.map fun (key, value) => key ++ "=" ++ word value.toText
  Text.join " " ([("time=" : Text) ++ word time, ("level=" : Text) ++ e.level.name] ++
    message ++ fields)

/-- The entry as a JSON object. -/
def Entry.toJson (e : Entry) (time : Text) : Json :=
  let fixed : List (Text × Json) :=
    [("time", .text time), ("level", .text e.level.name), ("msg", .text e.message)]
  let fields := e.shownFields.map fun (key, value) => (key, value.toJson)
  .object ((fields ++ fixed).foldl (fun all (key, value) => Ordered.assign key value all) [])

/-- The line of an entry. -/
def Entry.line (e : Entry) (format : Format) (time : Text) : Text :=
  match format with
  | .text => e.toText time ++ "\n"
  | .json => (e.toJson time).compact .html ++ "\n"

end PackageCycles.Log

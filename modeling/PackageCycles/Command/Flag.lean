import PackageCycles.Duration
import PackageCycles.Integer
import PackageCycles.Ordered
import PackageCycles.Text.Quoted

/-!
# Flags

Arguments of a command that start with a dash set its options: `-name value`, `-name=value`, or only
`-name` for one that is true or false. Two dashes do as well as one. The first argument that is no
flag ends them, and so does `--`. A flag set reads arguments into a record of options and notes
which flags were given. What was set before an error stays set.
-/

namespace PackageCycles

/-- What a flag sets. -/
inductive FlagKind (σ : Type) where
  | text (default : Text) (set : Text → σ → σ)
  | int (default : Int) (set : Int → σ → σ)
  | bool (default : Bool) (set : Bool → σ → σ)
  | duration (default : Duration) (set : Duration → σ → σ)
  /-- A flag that can be repeated. -/
  | texts (add : Text → σ → σ)

/-- A flag. -/
structure Flag (σ : Type) where
  /-- Its name. -/
  name : Text
  /-- What it is for. -/
  usage : Text
  /-- What it sets. -/
  kind : FlagKind σ

/-- The flags of a command. -/
structure FlagSet (σ : Type) where
  /-- The name of the command. -/
  command : Text
  /-- The flags. -/
  flags : List (Flag σ)

/-- Options as far as flags have set them. -/
structure Given (σ : Type) where
  /-- The options. -/
  options : σ
  /-- The names of the flags that were given. -/
  names : List Text

/-- What is wrong with the value of a flag. -/
inductive FlagFault where
  | malformed
  | outOfRange
  deriving DecidableEq

/-- The wording of a fault. -/
def FlagFault.message : FlagFault → Text
  | .malformed => "parse error"
  | .outOfRange => "value out of range"

/-- Why arguments cannot be read. -/
inductive FlagError where
  /-- An argument that starts like a flag and is none. -/
  | badSyntax (argument : Text)
  /-- There is no such flag. -/
  | undefined (name : Text)
  /-- The flag needs a value. -/
  | needsValue (name : Text)
  /-- The value is neither true nor false. -/
  | badTruth (name value : Text)
  /-- The value does not fit the flag. -/
  | badValue (name value : Text) (fault : FlagFault)
  /-- Help was asked for. -/
  | help
  deriving DecidableEq

/-- The wording of the error. -/
def FlagError.message : FlagError → Text
  | .badSyntax argument => ("bad flag syntax: " : Text) ++ argument
  | .undefined name => ("flag provided but not defined: -" : Text) ++ name
  | .needsValue name => ("flag needs an argument: -" : Text) ++ name
  | .badTruth name value =>
    ("invalid boolean value " : Text) ++ value.quoted ++ " for -" ++ name ++ ": " ++
      FlagFault.malformed.message
  | .badValue name value fault =>
    ("invalid value " : Text) ++ value.quoted ++ " for flag -" ++ name ++ ": " ++ fault.message
  | .help => "flag: help requested"

/-- The truth value that a text stands for. -/
def truth? (value : Text) : Option Bool :=
  if (["1", "t", "T", "TRUE", "true", "True"] : List Text).contains value then some true
  else if (["0", "f", "F", "FALSE", "false", "False"] : List Text).contains value then some false
  else none

namespace FlagKind

variable {σ : Type}

/-- The flag needs no value. -/
def isBool : FlagKind σ → Bool
  | .bool .. => true
  | _ => false

/-- Sets the option to a value, and says what is wrong with the value. A value that is wrong sets
the option too: to false, to no time, or to the nearest integer. -/
def set (kind : FlagKind σ) (value : Text) (options : σ) : σ × Option FlagFault :=
  match kind with
  | .text _ set => (set value options, none)
  | .texts add => (add value options, none)
  | .bool _ set =>
    (set ((truth? value).getD false) options,
      if (truth? value).isSome then none else some .malformed)
  | .duration _ set =>
    (set ((Duration.parse? value).getD .zero) options,
      if (Duration.parse? value).isSome then none else some .malformed)
  | .int _ set =>
    (set (Integer.nearest value) options,
      match Integer.parseLiteral value with
      | .ok _ => none
      | .error .malformed => some .malformed
      | .error .outOfRange => some .outOfRange)

/-- What kind of value the flag takes. -/
def typeName : FlagKind σ → Text
  | .text .. => "string"
  | .int .. => "int"
  | .bool .. => ""
  | .duration .. => "duration"
  | .texts .. => "value"

/-- The default as it is shown. One that goes without saying is not shown. -/
def shownDefault? : FlagKind σ → Option Text
  | .text default _ => if default = [] then none else some default.quoted
  | .int default _ => if default = 0 then none else some (Text.ofInt default)
  | .bool default _ => if default then some (Text.ofBool default) else none
  | .duration default _ => if default = .zero then none else some default.toText
  | .texts .. => none

end FlagKind

/-- What an argument is. -/
inductive Argument where
  /-- The flags end, and the argument is not one. -/
  | positional
  /-- The flags end, and the argument only says so. -/
  | terminator
  /-- A flag, with a value if it has one attached. -/
  | flag (name : Text) (value : Option Text)
  /-- It starts like a flag and is none. -/
  | malformed
  deriving DecidableEq

/-- A name with the value attached to it, if there is one. An equals sign at the start is a part of
the name. -/
def splitValue (body : Text) : Text × Option Text :=
  let name := body.take 1 ++ (body.drop 1).takeWhile (· ≠ Text.byte '=')
  match body.drop name.length with
  | [] => (name, none)
  | _ :: value => (name, some value)

/-- What an argument is. -/
def Argument.ofText (argument : Text) : Argument :=
  let dash := Text.byte '-'
  match argument with
  | first :: second :: rest =>
    if first ≠ dash then .positional
    else if second = dash ∧ rest = [] then .terminator
    else
      let body := if second = dash then rest else second :: rest
      if body.head? = some dash ∨ body.head? = some (Text.byte '=') then .malformed
      else
        let (name, value) := splitValue body
        .flag name value
  | _ => .positional

namespace FlagSet

variable {σ : Type}

/-- The flag with a name. -/
def find? (f : FlagSet σ) (name : Text) : Option (Flag σ) := f.flags.find? (·.name = name)

/-- Sets a flag to a value. -/
def assign (given : Given σ) (flag : Flag σ) (value : Text) : Given σ × Option FlagError :=
  match flag.kind.set value given.options with
  | (options, none) => (⟨options, given.names ++ [flag.name]⟩, none)
  | (options, some fault) =>
    let error :=
      if flag.kind.isBool then .badTruth flag.name value else .badValue flag.name value fault
    ({ given with options := options }, some error)

/-- Reads arguments. -/
def parse (f : FlagSet σ) (given : Given σ) : List Text → Given σ × Option FlagError
  | [] => (given, none)
  | argument :: rest =>
    match Argument.ofText argument with
    | .positional => (given, none)
    | .terminator => (given, none)
    | .malformed => (given, some (.badSyntax argument))
    | .flag name value =>
      match f.find? name with
      | none =>
        (given, some (if name = "help" ∨ name = "h" then .help else .undefined name))
      | some flag =>
        match value, flag.kind.isBool with
        | some value, _ =>
          match assign given flag value with
          | (given, none) => f.parse given rest
          | failed => failed
        | none, true =>
          match assign given flag "true" with
          | (given, none) => f.parse given rest
          | failed => failed
        | none, false =>
          match rest with
          | [] => (given, some (.needsValue name))
          | value :: rest =>
            match assign given flag value with
            | (given, none) => f.parse given rest
            | failed => failed

/-- The lines about a flag. Those of a flag with a name of one letter and no value are one. -/
def describe (flag : Flag σ) : Text :=
  let type := flag.kind.typeName
  let name := ("  -" : Text) ++ flag.name ++ (if type = [] then [] else (" " : Text) ++ type)
  let gap : Text := if name.length ≤ 4 then "\t" else "\n    \t"
  let default : Text :=
    match flag.kind.shownDefault? with
    | some value => (" (default " : Text) ++ value ++ ")"
    | none => []
  name ++ gap ++ flag.usage ++ default ++ "\n"

/-- The lines about all flags, in the order of their names. -/
def usage (f : FlagSet σ) : Text :=
  let sorted := f.flags.foldl (fun all flag => Ordered.assign flag.name flag all) []
  ("Usage of " : Text) ++ f.command ++ ":\n" ++ sorted.flatMap fun (_, flag) => describe flag

/-- What is printed about an error: its message, unless help was asked for, and the flags. -/
def complaint (f : FlagSet σ) (e : FlagError) : Text :=
  match e with
  | .help => f.usage
  | e => e.message ++ "\n" ++ f.usage

end FlagSet

end PackageCycles

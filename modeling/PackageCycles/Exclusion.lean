import PackageCycles.Pattern.Matcher
import PackageCycles.Pattern.Parser
import PackageCycles.Text.Quoted
import PackageCycles.Text.Utf8

/-!
# Excluded packages

A package is left out of the graph if one of the exclusion patterns matches its whole name. A
pattern has to be well-formed as it is written; only then is it wrapped so that it cannot match a
part of a name.
-/

namespace PackageCycles

/-- A pattern that is not well-formed. -/
structure PatternError where
  /-- The place of the pattern in the list, counted from zero. -/
  index : Nat
  /-- The pattern. -/
  pattern : Text
  /-- The text that was read when the fault was found: the pattern or its wrapped form. -/
  read : Text
  /-- What is wrong with it. -/
  fault : Pattern.Fault

/-- The wording of the error. -/
def PatternError.message (e : PatternError) : Text :=
  ("invalid exclude pattern #" : Text) ++ Text.ofNat (e.index + 1) ++ " " ++ Text.quoted e.pattern ++
    ": error parsing regexp: " ++ e.fault.message ++ " in `" ++ e.read ++ "`"

/-- A pattern with the expression that decides on whole names. -/
structure ExclusionRule where
  /-- The pattern as it was written. -/
  pattern : Text
  /-- The expression of the wrapped pattern. -/
  regex : Pattern.Regex

/-- The pattern wrapped so that it has to match from the start to the end. -/
def ExclusionRule.wrap (pattern : Text) : Text := ("\\A(?:" : Text) ++ pattern ++ ")\\z"

/-- Reads the pattern at a place of the list. -/
def ExclusionRule.compile (index : Nat) (pattern : Text) : Except PatternError ExclusionRule :=
  let parse := fun (text : Text) =>
    match Pattern.Regex.parse (Text.toChars text) with
    | .ok regex => Except.ok regex
    | .error fault => .error (PatternError.mk index pattern text fault)
  do
    let _ ← parse pattern
    return ⟨pattern, ← parse (wrap pattern)⟩

/-- The rule applies to the package. -/
def ExclusionRule.excludes (r : ExclusionRule) (package : Text) : Bool :=
  r.regex.isFoundIn (Text.toChars package)

/-- The patterns that say which packages are left out. -/
structure Exclusion where
  /-- The rules in the order in which they were given. -/
  rules : List ExclusionRule

namespace Exclusion

/-- Nothing is left out. -/
def nothing : Exclusion := ⟨[]⟩

/-- Reads the patterns from a place of the list on. -/
def compileFrom (index : Nat) : List Text → Except PatternError (List ExclusionRule)
  | [] => .ok []
  | p :: rest => do
    let rule ← ExclusionRule.compile index p
    return rule :: (← compileFrom (index + 1) rest)

/-- Reads the patterns. The first one that is not well-formed is the error. -/
def compile (patterns : List Text) : Except PatternError Exclusion := do
  return ⟨← compileFrom 0 patterns⟩

/-- The patterns as they were written. -/
def patterns (e : Exclusion) : List Text := e.rules.map (·.pattern)

/-- The number of patterns. -/
def size (e : Exclusion) : Nat := e.rules.length

/-- The package is left out. -/
def excludes (e : Exclusion) (package : Text) : Bool := e.rules.any (·.excludes package)

end Exclusion

end PackageCycles

import PackageCycles.Text.Basic

/-!
# Integers in text

Reading integers of 64 bits. `Integer.parse` reads one in a given base; `Integer.parseLiteral` reads
one whose prefix tells the base (`0x`, `0o`, `0b`, a leading `0` for octal), with underscores between
digits.
-/

namespace PackageCycles.Integer

/-- Why a text is no integer. -/
inductive Fault where
  | malformed
  | outOfRange
  deriving DecidableEq

/-- The least integer. -/
def least : Int := -9223372036854775808

/-- The greatest integer. -/
def greatest : Int := 9223372036854775807

/-- The value of a digit in bases up to 36. -/
def digit? (b : UInt8) : Option Nat :=
  if Text.byte '0' ≤ b && b ≤ Text.byte '9' then some (b.toNat - 48)
  else if Text.byte 'a' ≤ b && b ≤ Text.byte 'z' then some (b.toNat - 87)
  else if Text.byte 'A' ≤ b && b ≤ Text.byte 'Z' then some (b.toNat - 55)
  else none

/-- The number below `2 ^ 64` that digits stand for, continued from `n`. The first fault from the
left is reported. -/
def digits (base n : Nat) : Text → Except Fault Nat
  | [] => .ok n
  | b :: rest =>
    match digit? b with
    | none => .error .malformed
    | some d =>
      if base ≤ d then .error .malformed
      else if 18446744073709551616 ≤ n * base + d then .error .outOfRange
      else digits base (n * base + d) rest

/-- A number without a sign. -/
def unsigned (base : Nat) (s : Text) : Except Fault Nat :=
  if s = [] then .error .malformed else digits base 0 s

/-- The sign of a text, and what follows it. -/
def sign : Text → Bool × Text
  | [] => (false, [])
  | b :: rest =>
    if b = Text.byte '-' then (true, rest)
    else if b = Text.byte '+' then (false, rest)
    else (false, b :: rest)

/-- The integer with a sign and a size, if it is in range. -/
def signed (negative : Bool) (n : Nat) : Except Fault Int :=
  let value : Int := if negative then -n else n
  if value < least ∨ greatest < value then .error .outOfRange else .ok value

/-- The integer that a text stands for in a base. -/
def parse (base : Nat) (s : Text) : Except Fault Int := do
  let (negative, body) := sign s
  signed negative (← unsigned base body)

/-- The base that the prefix of a literal tells, with what follows the prefix. -/
def literalBase (body : Text) : Nat × Text :=
  match body with
  | zero :: letter :: more =>
    if zero ≠ Text.byte '0' then (10, body)
    else
      let c := (Char.ofNat letter.toNat).toLower
      if more ≠ [] ∧ c = 'x' then (16, more)
      else if more ≠ [] ∧ c = 'o' then (8, more)
      else if more ≠ [] ∧ c = 'b' then (2, more)
      else (8, letter :: more)
  | _ => (10, body)

/-- What was met last while underscores are checked. -/
inductive Met where
  | nothing
  | digit
  | underscore
  | other
  deriving DecidableEq

/-- Every underscore stands behind a digit and before one. -/
def underscoresFit (hex : Bool) : Met → Text → Bool
  | met, [] => met ≠ .underscore
  | met, b :: rest =>
    let isDigit := match digit? b with
      | some d => decide (d < 10) || (hex && decide (d < 16))
      | none => false
    if isDigit then underscoresFit hex .digit rest
    else if b = Text.byte '_' then met = .digit && underscoresFit hex .underscore rest
    else met ≠ .underscore && underscoresFit hex .other rest

/-- The underscores of a literal without its sign are where they may be. A prefix counts as a
digit. -/
def underscoresFitLiteral (body : Text) : Bool :=
  match body with
  | zero :: letter :: more =>
    let c := (Char.ofNat letter.toNat).toLower
    if zero = Text.byte '0' ∧ (c = 'x' ∨ c = 'o' ∨ c = 'b') then
      underscoresFit (c = 'x') .digit more
    else underscoresFit false .nothing body
  | _ => underscoresFit false .nothing body

/-- The number that a literal without a sign stands for. -/
def unsignedLiteral (body : Text) : Except Fault Nat := do
  if body = [] then throw .malformed
  let (base, rest) := literalBase body
  let n ← digits base 0 (rest.filter (· ≠ Text.byte '_'))
  if body.contains (Text.byte '_') && !underscoresFitLiteral body then throw .malformed
  return n

/-- The integer that a literal stands for. -/
def parseLiteral (s : Text) : Except Fault Int := do
  let (negative, body) := sign s
  signed negative (← unsignedLiteral body)

/-- The integer nearest to what a literal stands for: the end of the range for one that is out of
range, and zero for a malformed one. -/
def nearest (s : Text) : Int :=
  match parseLiteral s with
  | .ok n => n
  | .error .malformed => 0
  | .error .outOfRange => if (sign s).1 then least else greatest

end PackageCycles.Integer

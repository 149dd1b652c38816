import PackageCycles.Text.Basic

/-!
# Durations

Stretches of time in nanoseconds, with the form in which they are written (`1.5s`, `2m0s`, `350µs`)
and read. A written duration is a sum of decimal numbers with units.
-/

namespace PackageCycles

/-- A stretch of time. -/
structure Duration where
  /-- Its length in nanoseconds. -/
  nanoseconds : Int
  deriving DecidableEq

namespace Duration

/-- No time at all. -/
def zero : Duration := ⟨0⟩

/-- A number of whole seconds. -/
def seconds (n : Int) : Duration := ⟨n * 1000000000⟩

/-- `n` divided by `10 ^ places`, without zeros at the end of the fraction. -/
def fixed (places n : Nat) : Text :=
  let unit := Nat.pow 10 places
  let fraction := Nat.toDigits 10 (n % unit)
  let padded := List.replicate (places - fraction.length) '0' ++ fraction
  let shown := (padded.reverse.dropWhile (· = '0')).reverse
  let whole := Text.ofNat (n / unit)
  if n % unit = 0 then whole else whole ++ "." ++ Text.ofChars shown

/-- The duration as it is written. Below a second a smaller unit is used, above it hours, minutes
and seconds. -/
def toText (d : Duration) : Text :=
  let n := d.nanoseconds.natAbs
  let sign : Text := if d.nanoseconds < 0 then "-" else ""
  let body : Text :=
    if n = 0 then "0s"
    else if n < 1000 then fixed 0 n ++ "ns"
    else if n < 1000000 then fixed 3 n ++ "µs"
    else if n < 1000000000 then fixed 6 n ++ "ms"
    else
      let minutes := n / 60000000000
      let seconds := fixed 9 (n % 60000000000) ++ "s"
      if minutes = 0 then seconds
      else if minutes < 60 then Text.ofNat minutes ++ "m" ++ seconds
      else Text.ofNat (minutes / 60) ++ "h" ++ Text.ofNat (minutes % 60) ++ "m" ++ seconds
  sign ++ body

/-- The nanoseconds of a unit. -/
def unit? (name : Text) : Option Nat :=
  if name = "ns" then some 1
  else if name = "us" ∨ name = "µs" ∨ name = "μs" then some 1000
  else if name = "ms" then some 1000000
  else if name = "s" then some 1000000000
  else if name = "m" then some 60000000000
  else if name = "h" then some 3600000000000
  else none

/-- An ASCII digit. -/
def isDigit (b : UInt8) : Bool := Text.byte '0' ≤ b && b ≤ Text.byte '9'

/-- The number that digits stand for. -/
def value (digits : Text) : Nat := digits.foldl (fun n b => n * 10 + (b.toNat - 48)) 0

/-- The greatest number of nanoseconds. -/
def limit : Nat := 9223372036854775808

/-- One number with its unit at the start of a text, in nanoseconds, and what follows. -/
def term? (s : Text) : Option (Nat × Text) := do
  let whole := s.takeWhile isDigit
  let s := s.dropWhile isDigit
  let (fraction, s) := match s with
    | b :: rest =>
      if b = Text.byte '.' then (rest.takeWhile isDigit, rest.dropWhile isDigit) else ([], s)
    | [] => ([], [])
  guard (whole ≠ [] ∨ fraction ≠ [])
  let inUnit := fun (b : UInt8) => !(isDigit b) && b != Text.byte '.'
  let unit ← unit? (s.takeWhile inUnit)
  let n := value whole * unit + value fraction * unit / Nat.pow 10 fraction.length
  guard (n ≤ limit)
  return (n, s.dropWhile inUnit)

/-- The sum of at least one number with its unit, `fuel` of them at most. -/
def sum? : (fuel : Nat) → Text → Option Nat
  | 0, _ => none
  | fuel + 1, s => do
    let (n, rest) ← term? s
    if rest = [] then return n
    let m ← sum? fuel rest
    guard (n + m ≤ limit)
    return n + m

/-- The duration that a text stands for. -/
def parse? (s : Text) : Option Duration := do
  let (negative, body) := match s with
    | b :: rest =>
      if b = Text.byte '-' then (true, rest)
      else if b = Text.byte '+' then (false, rest)
      else (false, s)
    | [] => (false, [])
  if body = "0" then return zero
  let n ← sum? (body.length + 1) body
  if negative then return ⟨-n⟩
  guard (n < limit)
  return ⟨n⟩

end Duration

end PackageCycles

import PackageCycles.Text.Basic

/-!
# Shortest decimals

A binary floating-point number is written with the fewest decimal digits that read back as the same
number; of several such decimals the nearest is taken. The number is `m * 2 ^ q`. Every real between
the middles to its two neighbours reads back as the number, the middles themselves if `m` is even.
For one digit after the other the two decimals around the number are compared with that interval, in
natural numbers.
-/

namespace PackageCycles

/-- A positive decimal: `digits * 10 ^ exponent`. -/
structure Decimal where
  /-- The digits as a number. -/
  digits : Nat
  /-- The power of ten that they are multiplied by. -/
  exponent : Int
  deriving DecidableEq

/-- A positive number in binary: `mantissa * 2 ^ exponent`. -/
structure Binary where
  /-- The mantissa. -/
  mantissa : Nat
  /-- The power of two that it is multiplied by. -/
  exponent : Int
  /-- The neighbour below is nearer than the one above. -/
  narrowBelow : Bool
  deriving DecidableEq

namespace Decimal

/-- The product of `n` and a power of `base`, as numerator and denominator. -/
def scale (n base : Nat) (exponent : Int) : Nat × Nat :=
  if 0 ≤ exponent then (n * Nat.pow base exponent.toNat, 1)
  else (n, Nat.pow base (-exponent).toNat)

/-- One fraction is at most another one; with `strict` it is less. -/
def fractionLE (strict : Bool) (a b : Nat × Nat) : Bool :=
  if strict then a.1 * b.2 < b.1 * a.2 else a.1 * b.2 ≤ b.1 * a.2

/-- The least `n`, from `n` on, with `den ≤ num * 10 ^ n`, looking at `fuel` numbers at most. -/
def zerosAfterPoint (num den : Nat) : (fuel : Nat) → Nat → Nat
  | 0, n => n
  | fuel + 1, n => if den ≤ num * Nat.pow 10 n then n else zerosAfterPoint num den fuel (n + 1)

/-- The power of ten of the leading digit of a positive fraction. -/
def leadingPower (value : Nat × Nat) : Int :=
  if value.2 ≤ value.1 then (Nat.toDigits 10 (value.1 / value.2)).length - 1
  else -(zerosAfterPoint value.1 value.2 400 1 : Nat)

/-- The decimal as a fraction. -/
def toFraction (d : Decimal) : Nat × Nat := scale d.digits 10 d.exponent

/-- The decimal without zeros at its end. -/
def strip : (fuel : Nat) → Decimal → Decimal
  | 0, d => d
  | fuel + 1, d =>
    if d.digits ≠ 0 ∧ d.digits % 10 = 0 then strip fuel ⟨d.digits / 10, d.exponent + 1⟩ else d

/-- The shortest decimal with at least `17 - fuel` digits that reads back as the number. -/
def search (b : Binary) (power : Int) : (fuel : Nat) → Decimal
  | 0 => ⟨0, 0⟩
  | fuel + 1 =>
    let value := scale (4 * b.mantissa) 2 (b.exponent - 2)
    let low := scale (4 * b.mantissa - (if b.narrowBelow then 1 else 2)) 2 (b.exponent - 2)
    let high := scale (4 * b.mantissa + 2) 2 (b.exponent - 2)
    let strict := b.mantissa % 2 = 1
    let exponent := power - (16 - fuel : Nat)
    let unit := scale 1 10 exponent
    let n := value.1 * unit.2 / (value.2 * unit.1)
    let below : Decimal := ⟨n, exponent⟩
    let above : Decimal := ⟨n + 1, exponent⟩
    let belowHits := fractionLE strict low below.toFraction
    let aboveHits := fractionLE strict above.toFraction high
    if belowHits && aboveHits then
      -- The nearer one: `value - below` against `above - value`.
      let rest := value.1 * unit.2 % (value.2 * unit.1)
      if 2 * rest < value.2 * unit.1 ∨ (2 * rest = value.2 * unit.1 ∧ n % 2 = 0) then below
      else above
    else if belowHits then below
    else if aboveHits then above
    else search b power fuel

/-- The shortest decimal that reads back as the number. -/
def shortest (b : Binary) : Decimal :=
  strip 400 (search b (leadingPower (scale b.mantissa 2 b.exponent)) 17)

/-- The parts of a floating-point number of 64 bits that is finite and not zero. -/
def binaryOf (x : Float) : Binary :=
  let bits := x.toBits.toNat
  let fraction : Nat := bits % 4503599627370496
  let power : Nat := bits / 4503599627370496 % 2048
  if power = 0 then ⟨fraction, -1074, false⟩
  else ⟨4503599627370496 + fraction, (power : Int) - 1075, fraction = 0 ∧ power ≠ 1⟩

/-- The exponent with its sign and at least two digits. -/
def exponentText (n : Int) : Text :=
  let digits := Text.ofNat n.natAbs
  (if n < 0 then ("e-" : Text) else "e+") ++
    (if n.natAbs < 10 then ("0" : Text) ++ digits else digits)

/-- From which power of ten on a number is written with an exponent. -/
def exponentFrom : Int := 6

/-- The decimal as it is written: with an exponent if its leading digit stands at a power of ten
below -4 or from `exponentFrom` on. -/
def toText (d : Decimal) : Text :=
  let digits := Nat.toDigits 10 d.digits
  let power := d.exponent + digits.length - 1
  if power < -4 ∨ exponentFrom ≤ power then
    let fraction := digits.drop 1
    Text.ofChars (digits.take 1) ++
      (if fraction.isEmpty then [] else ("." : Text) ++ Text.ofChars fraction) ++ exponentText power
  else if power < 0 then
    ("0." : Text) ++ Text.ofChars (List.replicate (-power - 1).toNat '0' ++ digits)
  else if 0 ≤ d.exponent then
    Text.ofChars (digits ++ List.replicate d.exponent.toNat '0')
  else
    let whole := (power + 1).toNat
    Text.ofChars (digits.take whole) ++ "." ++ Text.ofChars (digits.drop whole)

/-- A floating-point number as it is written. -/
def ofFloat (x : Float) : Text :=
  if x.isNaN then "NaN"
  else
    let sign : Text := if x < 0 then "-" else ""
    if x.isInf then (if x < 0 then "-Inf" else "+Inf")
    else if x == 0 then (if x.toBits = 0 then "0" else "-0")
    else sign ++ toText (shortest (binaryOf x.abs))

end Decimal

end PackageCycles

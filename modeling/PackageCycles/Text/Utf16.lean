import PackageCycles.Text.Basic

/-!
# Text in units of two bytes

Text may be encoded in units of two bytes, with the low or the high byte first. A unit is a
character, or one half of a pair that together is one beyond U+FFFF; a half by itself is not valid.
-/

namespace PackageCycles.Text.Utf16

/-- Which byte of a unit comes first. -/
inductive ByteOrder where
  | lowFirst
  | highFirst
  deriving DecidableEq

/-- The unit of two bytes. -/
def unitOf : ByteOrder → UInt8 → UInt8 → Nat
  | .lowFirst, a, b => b.toNat * 256 + a.toNat
  | .highFirst, a, b => a.toNat * 256 + b.toNat

/-- The first half of a pair. -/
def isHigh (unit : Nat) : Bool := 0xD800 ≤ unit && unit < 0xDC00

/-- The second half of a pair. -/
def isLow (unit : Nat) : Bool := 0xDC00 ≤ unit && unit < 0xE000

/-- The character of a pair. -/
def pair (high low : Nat) : Char :=
  Char.ofNat (0x10000 + (high - 0xD800) * 0x400 + (low - 0xDC00))

end PackageCycles.Text.Utf16

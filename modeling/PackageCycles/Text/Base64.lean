import PackageCycles.Text.Basic

/-!
# Bytes in base 64

Three bytes are written as four characters of 64; the last group is filled up with `=`.
-/

namespace PackageCycles.Text.Base64

/-- The characters for the numbers below 64. -/
def alphabet : List Char :=
  "ABCDEFGHIJKLMNOPQRSTUVWXYZabcdefghijklmnopqrstuvwxyz0123456789+/".toList

/-- The character for a number below 64. -/
def charOf (n : Nat) : UInt8 := byte (alphabet.getD n '=')

/-- The number below 64 of a character. -/
def valueOf? (b : UInt8) : Option Nat := alphabet.findIdx? fun c => byte c = b

/-- The bytes as characters. -/
def encode : Text → Text
  | [] => []
  | [a] =>
    let n := a.toNat * 16
    [charOf (n / 64), charOf (n % 64), byte '=', byte '=']
  | [a, b] =>
    let n := (a.toNat * 256 + b.toNat) * 4
    [charOf (n / 4096), charOf (n / 64 % 64), charOf (n % 64), byte '=']
  | a :: b :: c :: rest =>
    let n := (a.toNat * 256 + b.toNat) * 256 + c.toNat
    charOf (n / 262144) :: charOf (n / 4096 % 64) :: charOf (n / 64 % 64) :: charOf (n % 64) ::
      encode rest

/-- The bytes of characters without line breaks. -/
def decodeGroups : Text → Option Text
  | [] => some []
  | a :: b :: c :: d :: rest => do
    let a ← valueOf? a
    let b ← valueOf? b
    if c = byte '=' then
      guard (d = byte '=' ∧ rest = [])
      return [(a * 4 + b / 16).toUInt8]
    let c ← valueOf? c
    if d = byte '=' then
      guard (rest = [])
      return [(a * 4 + b / 16).toUInt8, (b % 16 * 16 + c / 4).toUInt8]
    let d ← valueOf? d
    return (a * 4 + b / 16).toUInt8 :: (b % 16 * 16 + c / 4).toUInt8 :: (c % 4 * 64 + d).toUInt8 ::
      (← decodeGroups rest)
  | _ => none

/-- The bytes of characters, if they are well-formed. Line breaks do not matter. -/
def decode? (s : Text) : Option Text :=
  decodeGroups (s.filter fun b => b ≠ byte '\n' ∧ b ≠ byte '\r')

end PackageCycles.Text.Base64

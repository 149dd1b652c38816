import PackageCycles.Text.Basic

/-!
# Characters of a text

A text is read as characters from left to right. A byte that starts no valid UTF-8 sequence stands
for itself and the reading goes on behind it, so every text has exactly one reading
(`Text.pieces`); it is valid when no such stray byte occurs (`Text.isValid`). Overlong forms,
surrogates and values above U+10FFFF are not valid sequences.
-/

namespace PackageCycles

/-- One step of reading a text: a character, or a byte that belongs to none. -/
inductive Piece where
  /-- A validly encoded character. -/
  | char (c : Char)
  /-- A byte that starts no valid sequence. -/
  | stray (b : UInt8)
  deriving DecidableEq

namespace Text

/-- A continuation byte of a UTF-8 sequence. -/
def isTail (b : UInt8) : Bool := 0x80 ≤ b && b ≤ 0xBF

/-- The six payload bits of a continuation byte. -/
def tailBits (b : UInt8) : Nat := b.toNat % 64

/-- The first character or stray byte of a text, with the bytes behind it. -/
def uncons : Text → Option (Piece × Text)
  | [] => none
  | a :: rest =>
    if a < 0x80 then some (.char (Char.ofNat a.toNat), rest)
    else if 0xC2 ≤ a && a ≤ 0xDF then
      match rest with
      | b :: more =>
        if isTail b then some (.char (Char.ofNat (a.toNat % 32 * 64 + tailBits b)), more)
        else some (.stray a, rest)
      | [] => some (.stray a, rest)
    else if 0xE0 ≤ a && a ≤ 0xEF then
      match rest with
      | b :: c :: more =>
        if (if a = 0xE0 then 0xA0 else 0x80) ≤ b && b ≤ (if a = 0xED then 0x9F else 0xBF)
            && isTail c then
          some (.char (Char.ofNat (a.toNat % 16 * 4096 + tailBits b * 64 + tailBits c)), more)
        else some (.stray a, rest)
      | _ => some (.stray a, rest)
    else if 0xF0 ≤ a && a ≤ 0xF4 then
      match rest with
      | b :: c :: d :: more =>
        if (if a = 0xF0 then 0x90 else 0x80) ≤ b && b ≤ (if a = 0xF4 then 0x8F else 0xBF)
            && isTail c && isTail d then
          some (.char (Char.ofNat
            (a.toNat % 8 * 262144 + tailBits b * 4096 + tailBits c * 64 + tailBits d)), more)
        else some (.stray a, rest)
      | _ => some (.stray a, rest)
    else some (.stray a, rest)

/-- Reading consumes at least one byte. -/
theorem length_lt_of_uncons {s rest : Text} {p : Piece} (h : uncons s = some (p, rest)) :
    rest.length < s.length := by
  unfold uncons at h
  repeat' split at h
  all_goals cases h <;> simp only [List.length_cons] <;> omega

/-- The characters and stray bytes of a text in order. -/
def pieces (s : Text) : List Piece :=
  match _h : uncons s with
  | none => []
  | some (p, rest) => p :: pieces rest
termination_by s.length
decreasing_by exact length_lt_of_uncons _h

/-- The text is valid UTF-8. -/
def isValid (s : Text) : Bool := s.pieces.all fun
  | .char _ => true
  | .stray _ => false

/-- The character a piece is shown as: a stray byte is shown as U+FFFD. -/
def shown : Piece → Char
  | .char c => c
  | .stray _ => Char.ofNat 0xFFFD

/-- The characters of a text, each stray byte replaced by U+FFFD. -/
def toChars (s : Text) : List Char := s.pieces.map shown

end Text

end PackageCycles

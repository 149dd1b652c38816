import PackageCycles.Text.Basic

/-!
# Blanks

The blank characters are those with the Unicode property White_Space. `Text.trim` takes them off
both ends of a text. It works on the encoded characters: a blank is one of the byte sequences that
`Text.dropBlank?` lists, and because no UTF-8 sequence is the end of another one, taking such a
sequence off the right end takes off a whole character.
-/

namespace PackageCycles.Text

/-- The characters with the property White_Space. -/
def isBlankChar (c : Char) : Bool :=
  let v := c.toNat
  (9 ≤ v && v ≤ 13) || v = 0x20 || v = 0x85 || v = 0xA0 || v = 0x1680 ||
    (0x2000 ≤ v && v ≤ 0x200A) || v = 0x2028 || v = 0x2029 || v = 0x202F || v = 0x205F || v = 0x3000

/-- The blanks of one byte. -/
def isBlankByte (b : UInt8) : Bool := (9 ≤ b && b ≤ 13) || b = 0x20

/-- The blanks of two bytes: U+0085 and U+00A0. -/
def isBlankPair (a b : UInt8) : Bool := a = 0xC2 && (b = 0x85 || b = 0xA0)

/-- The blanks of three bytes: U+1680, U+2000 to U+200A, U+2028, U+2029, U+202F, U+205F, U+3000. -/
def isBlankTriple (a b c : UInt8) : Bool :=
  (a = 0xE1 && b = 0x9A && c = 0x80) ||
  (a = 0xE2 && b = 0x80 && ((0x80 ≤ c && c ≤ 0x8A) || c = 0xA8 || c = 0xA9 || c = 0xAF)) ||
  (a = 0xE2 && b = 0x81 && c = 0x9F) ||
  (a = 0xE3 && b = 0x80 && c = 0x80)

/-- The text behind its first blank, if it starts with one. -/
def dropBlank? : Text → Option Text
  | [] => none
  | [a] => if isBlankByte a then some [] else none
  | [a, b] => if isBlankByte a then some [b] else if isBlankPair a b then some [] else none
  | a :: b :: c :: rest =>
    if isBlankByte a then some (b :: c :: rest)
    else if isBlankPair a b then some (c :: rest)
    else if isBlankTriple a b c then some rest
    else none

/-- The same for a text whose bytes stand in reverse order. -/
def dropBlankReversed? : Text → Option Text
  | [] => none
  | [a] => if isBlankByte a then some [] else none
  | [b, a] => if isBlankByte b then some [a] else if isBlankPair a b then some [] else none
  | c :: b :: a :: rest =>
    if isBlankByte c then some (b :: a :: rest)
    else if isBlankPair b c then some (a :: rest)
    else if isBlankTriple a b c then some rest
    else none

theorem length_lt_of_dropBlank? {s rest : Text} (h : dropBlank? s = some rest) :
    rest.length < s.length := by
  unfold dropBlank? at h
  repeat' split at h
  all_goals cases h <;> simp only [List.length_cons, List.length_nil] <;> omega

theorem length_lt_of_dropBlankReversed? {s rest : Text} (h : dropBlankReversed? s = some rest) :
    rest.length < s.length := by
  unfold dropBlankReversed? at h
  repeat' split at h
  all_goals cases h <;> simp only [List.length_cons, List.length_nil] <;> omega

/-- The text without the blanks at its start. -/
def trimLeft (s : Text) : Text :=
  match _h : dropBlank? s with
  | none => s
  | some rest => trimLeft rest
termination_by s.length
decreasing_by exact length_lt_of_dropBlank? _h

/-- A reversed text without the blanks at its start. -/
def trimLeftReversed (s : Text) : Text :=
  match _h : dropBlankReversed? s with
  | none => s
  | some rest => trimLeftReversed rest
termination_by s.length
decreasing_by exact length_lt_of_dropBlankReversed? _h

/-- The text without the blanks at its end. -/
def trimRight (s : Text) : Text := (trimLeftReversed s.reverse).reverse

/-- The text without the blanks at either end. -/
def trim (s : Text) : Text := trimRight (trimLeft s)

end PackageCycles.Text

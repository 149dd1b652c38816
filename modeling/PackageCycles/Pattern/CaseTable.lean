/-!
# Lower case forms of ranges

A set that ignores case holds for the lower case forms of the characters in its ranges. They are
found range by range in a table of its own, `caseTable`, which covers the letters of the older
alphabets and treats each of its stretches as a whole: what it adds to a range is again a range.
-/

namespace PackageCycles.Pattern

/-- How the lower case form of a character in a stretch is found. -/
inductive CaseRule where
  /-- All characters have the same lower case form. -/
  | to (code : Nat)
  /-- The lower case form is at a fixed distance. -/
  | shift (distance : Int)
  /-- Upper case letters are even and followed by their lower case forms. -/
  | odd
  /-- Upper case letters are odd and followed by their lower case forms. -/
  | even

/-- A stretch of characters that follow one rule. -/
structure CaseStretch where
  /-- The first character. -/
  first : Nat
  /-- The last character. -/
  last : Nat
  /-- How lower case forms are found. -/
  rule : CaseRule

/-- The code point to which a rule leads. -/
def CaseRule.apply : CaseRule → Nat → Nat
  | .to code, _ => code
  | .shift distance, n => (n + distance).toNat
  | .odd, n => if n % 2 = 0 then n + 1 else n
  | .even, n => n + n % 2

/-- The stretches in increasing order. -/
def caseTable : List CaseStretch := [
  ⟨0x41, 0x5A, .shift 32⟩, ⟨0xC0, 0xDE, .shift 32⟩, ⟨0x100, 0x12E, .odd⟩,
  ⟨0x130, 0x130, .to 0x69⟩, ⟨0x132, 0x136, .odd⟩, ⟨0x139, 0x147, .even⟩, ⟨0x14A, 0x176, .odd⟩,
  ⟨0x178, 0x178, .to 0xFF⟩, ⟨0x179, 0x17D, .even⟩, ⟨0x181, 0x181, .to 0x253⟩,
  ⟨0x182, 0x184, .odd⟩, ⟨0x186, 0x186, .to 0x254⟩, ⟨0x187, 0x187, .to 0x188⟩,
  ⟨0x189, 0x18A, .shift 205⟩, ⟨0x18B, 0x18B, .to 0x18C⟩, ⟨0x18E, 0x18E, .to 0x1DD⟩,
  ⟨0x18F, 0x18F, .to 0x259⟩, ⟨0x190, 0x190, .to 0x25B⟩, ⟨0x191, 0x191, .to 0x192⟩,
  ⟨0x193, 0x193, .to 0x260⟩, ⟨0x194, 0x194, .to 0x263⟩, ⟨0x196, 0x196, .to 0x269⟩,
  ⟨0x197, 0x197, .to 0x268⟩, ⟨0x198, 0x198, .to 0x199⟩, ⟨0x19C, 0x19C, .to 0x26F⟩,
  ⟨0x19D, 0x19D, .to 0x272⟩, ⟨0x19F, 0x19F, .to 0x275⟩, ⟨0x1A0, 0x1A4, .odd⟩,
  ⟨0x1A7, 0x1A7, .to 0x1A8⟩, ⟨0x1A9, 0x1A9, .to 0x283⟩, ⟨0x1AC, 0x1AC, .to 0x1AD⟩,
  ⟨0x1AE, 0x1AE, .to 0x288⟩, ⟨0x1AF, 0x1AF, .to 0x1B0⟩, ⟨0x1B1, 0x1B2, .shift 217⟩,
  ⟨0x1B3, 0x1B5, .even⟩, ⟨0x1B7, 0x1B7, .to 0x292⟩, ⟨0x1B8, 0x1B8, .to 0x1B9⟩,
  ⟨0x1BC, 0x1BC, .to 0x1BD⟩, ⟨0x1C4, 0x1C5, .to 0x1C6⟩, ⟨0x1C7, 0x1C8, .to 0x1C9⟩,
  ⟨0x1CA, 0x1CB, .to 0x1CC⟩, ⟨0x1CD, 0x1DB, .even⟩, ⟨0x1DE, 0x1EE, .odd⟩,
  ⟨0x1F1, 0x1F2, .to 0x1F3⟩, ⟨0x1F4, 0x1F4, .to 0x1F5⟩, ⟨0x1FA, 0x216, .odd⟩,
  ⟨0x386, 0x386, .to 0x3AC⟩, ⟨0x388, 0x38A, .shift 37⟩, ⟨0x38C, 0x38C, .to 0x3CC⟩,
  ⟨0x38E, 0x38F, .shift 63⟩, ⟨0x391, 0x3AB, .shift 32⟩, ⟨0x3E2, 0x3EE, .odd⟩,
  ⟨0x401, 0x40F, .shift 80⟩, ⟨0x410, 0x42F, .shift 32⟩, ⟨0x460, 0x480, .odd⟩,
  ⟨0x490, 0x4BE, .odd⟩, ⟨0x4C1, 0x4C3, .even⟩, ⟨0x4C7, 0x4C7, .to 0x4C8⟩,
  ⟨0x4CB, 0x4CB, .to 0x4CC⟩, ⟨0x4D0, 0x4EA, .odd⟩, ⟨0x4EE, 0x4F4, .odd⟩,
  ⟨0x4F8, 0x4F8, .to 0x4F9⟩, ⟨0x531, 0x556, .shift 48⟩, ⟨0x10A0, 0x10C5, .shift 48⟩,
  ⟨0x1E00, 0x1EF8, .odd⟩, ⟨0x1F08, 0x1F0F, .shift (-8)⟩, ⟨0x1F18, 0x1F1F, .shift (-8)⟩,
  ⟨0x1F28, 0x1F2F, .shift (-8)⟩, ⟨0x1F38, 0x1F3F, .shift (-8)⟩, ⟨0x1F48, 0x1F4D, .shift (-8)⟩,
  ⟨0x1F59, 0x1F59, .to 0x1F51⟩, ⟨0x1F5B, 0x1F5B, .to 0x1F53⟩, ⟨0x1F5D, 0x1F5D, .to 0x1F55⟩,
  ⟨0x1F5F, 0x1F5F, .to 0x1F57⟩, ⟨0x1F68, 0x1F6F, .shift (-8)⟩, ⟨0x1F88, 0x1F8F, .shift (-8)⟩,
  ⟨0x1F98, 0x1F9F, .shift (-8)⟩, ⟨0x1FA8, 0x1FAF, .shift (-8)⟩, ⟨0x1FB8, 0x1FB9, .shift (-8)⟩,
  ⟨0x1FBA, 0x1FBB, .shift (-74)⟩, ⟨0x1FBC, 0x1FBC, .to 0x1FB3⟩, ⟨0x1FC8, 0x1FCB, .shift (-86)⟩,
  ⟨0x1FCC, 0x1FCC, .to 0x1FC3⟩, ⟨0x1FD8, 0x1FD9, .shift (-8)⟩, ⟨0x1FDA, 0x1FDB, .shift (-100)⟩,
  ⟨0x1FE8, 0x1FE9, .shift (-8)⟩, ⟨0x1FEA, 0x1FEB, .shift (-112)⟩, ⟨0x1FEC, 0x1FEC, .to 0x1FE5⟩,
  ⟨0x1FF8, 0x1FF9, .shift (-128)⟩, ⟨0x1FFA, 0x1FFB, .shift (-126)⟩, ⟨0x1FFC, 0x1FFC, .to 0x1FF3⟩,
  ⟨0x2160, 0x216F, .shift 16⟩, ⟨0x24B6, 0x24D0, .shift 26⟩, ⟨0xFF21, 0xFF3A, .shift 32⟩]

/-- The range of lower case forms that a stretch adds to a range, if they are not all in it. -/
def CaseStretch.lowered? (s : CaseStretch) (first last : Nat) : Option (Nat × Nat) :=
  if s.last < first ∨ last < s.first then none
  else
    let low := s.rule.apply (max s.first first)
    let high := s.rule.apply (min s.last last)
    if low < first ∨ last < high then some (low, high) else none

/-- The ranges of lower case forms to be added to a range. -/
def loweredRanges (first last : Nat) : List (Nat × Nat) :=
  caseTable.filterMap (·.lowered? first last)

end PackageCycles.Pattern
